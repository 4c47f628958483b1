import HolGuard.Lib.Base64
import HolGuard.Lib.JsonLimits
import HolGuard.Wire.ContextJson
import HolGuard.Wire.SnapshotCodec
/-!
# Approval-context tokens

A token is the digests of five components, each taken over canonical JSON that names the component and the domain, in a
canonical JSON payload in base64.  `context_token_binds`: a token validates against exactly the components it was built
from, and otherwise the first component that differs is reported.
-/
namespace Guard.Wire

open Lib JsonReader
open Lib.KeyOrder (bytes)

def tokenDomain : String := "hol.guard.approval-context"

def approvalContextTokenStart : String := "guard-approval-context:v1:"

def approvalContextTokenMaxBytes : Nat := 2048

structure ContextDigestComponentsV1 (V : Type) where
  identity : V
  content : V
  capabilities : V
  policy : V
  sandbox : V
  extension_control_digest : String

/-- Parsed component digests. -/
structure ParsedContextToken where
  identity : String
  content : String
  capabilities : String
  policy : String
  sandbox : String

def quoted (s : String) : List Char := asciiString (codePoints s)

section

variable (sha : Hash) (B : Binary64)

/-! ## Building -/

/-- Wrapper keys are already in sorted order. -/
def componentStart (component : String) : List Char :=
  ['{'] ++ quoted "component" ++ [':'] ++ quoted component ++ [','] ++ quoted "domain" ++ [':'] ++ quoted tokenDomain
    ++ [','] ++ quoted "value" ++ [':']

def componentMaterial (component : String) (value : NativeValue B.F) : Except String (List Char) :=
  (writeContextJson B value (componentStart component)).map
    (fun material => material ++ [','] ++ quoted "version" ++ [':'] ++ ['1'] ++ ['}'])

def componentHash (component : String) (value : NativeValue B.F) : Except String String :=
  (componentMaterial B component value).map (fun material => sha.hex (utf8 (String.ofList material)))

/-- The policy with the extension-control digest, as the map holds them. -/
def policyWrapped {N : Type} (extensionControlDigest : String) (policy : JsonTree String N) : JsonTree String N :=
  .obj [("extension_control_digest", .str extensionControlDigest), ("policy", policy)]

/-- Payload keys in sorted order. -/
def tokenPayload (t : ParsedContextToken) : List Char :=
  ['{'] ++ quoted "capabilities" ++ [':'] ++ quoted t.capabilities ++ [','] ++ quoted "content" ++ [':'] ++
    quoted t.content
    ++ [','] ++ quoted "identity" ++ [':'] ++ quoted t.identity ++ [','] ++ quoted "policy" ++ [':'] ++ quoted t.policy
    ++ [','] ++ quoted "sandbox" ++ [':'] ++ quoted t.sandbox ++ [','] ++ quoted "version" ++ [':', '1', '}']

def contextDigests (components : ContextDigestComponentsV1 (NativeValue B.F)) : Except String ParsedContextToken := do
  let identity ← componentHash sha B "identity" components.identity
  let content ← componentHash sha B "content" components.content
  let capabilities ← componentHash sha B "capabilities" components.capabilities
  let policy ← componentHash sha B "policy" (policyWrapped components.extension_control_digest components.policy)
  let sandbox ← componentHash sha B "sandbox" components.sandbox
  .ok ⟨identity, content, capabilities, policy, sandbox⟩

def tokenText (t : ParsedContextToken) : String :=
  approvalContextTokenStart ++ String.ofList (Base64.encode (utf8 (String.ofList (tokenPayload t))))

def buildContextToken (components : ContextDigestComponentsV1 (NativeValue B.F)) : Except String String :=
  (contextDigests sha B components).map tokenText

end

/-! ## Parsing -/

section

variable (B : Binary64)

def isSha256Hex : NativeValue B.F → Option String
  | .str text => if isHexDigest text then some text else none
  | _ => none

/-- Python compares the version with `1` numerically, so `1.0` and `true` pass. -/
def isTokenVersion : Option (NativeValue B.F) → Bool
  | some (.bool b) => b
  | some (.num (.int i)) => i.val == 1
  | some (.num (.float f)) => B.isOne f
  | _ => false

def stripStart (start text : String) : Option (List Char) :=
  if start.toList.isPrefixOf text.toList then some (text.toList.drop start.toList.length) else none

def tokenFields (object : List (String × NativeValue B.F)) : Option ParsedContextToken := do
  let identity ← (object.lookup "identity").bind (isSha256Hex B)
  let content ← (object.lookup "content").bind (isSha256Hex B)
  let capabilities ← (object.lookup "capabilities").bind (isSha256Hex B)
  let policy ← (object.lookup "policy").bind (isSha256Hex B)
  let sandbox ← (object.lookup "sandbox").bind (isSha256Hex B)
  some ⟨identity, content, capabilities, policy, sandbox⟩

def parseContextPayload (payload : NativeValue B.F) : Option ParsedContextToken :=
  match payload with
  | .obj object =>
    if object.length ≠ 6 ∨ isTokenVersion B (object.lookup "version") = false then none else tokenFields B object
  | _ => none

def parseContextText (text : String) : Option ParsedContextToken := do
  let encoded ← stripStart approvalContextTokenStart text
  if approvalContextTokenMaxBytes < text.utf8ByteSize ∨ encoded.isEmpty ∨ encoded.all Base64.isAlphabet = false then
    none
  else do
    let raw ← Base64.decode encoded
    let payloadText ← decodeUtf8 raw
    let payload ← fromStr B payloadText
    parseContextPayload B payload

def parseContextToken : NativeValue B.F → Option ParsedContextToken
  | .str text => parseContextText B text
  | _ => none

/-! ## Validating -/

/-- The reason of the first pair of digests that differ. -/
def firstDifference : List (String × String × String) → Option String
  | [] => none
  | (left, right, reason) :: rest => if left ≠ right then some reason else firstDifference rest

def compareTokens (saved current : ParsedContextToken) : Option String :=
  firstDifference
    [(saved.identity, current.identity, "approval_reuse_identity_changed"),
     (saved.content, current.content, "approval_reuse_content_changed"),
     (saved.capabilities, current.capabilities, "approval_reuse_capability_changed"),
     (saved.policy, current.policy, "approval_reuse_policy_changed"),
     (saved.sandbox, current.sandbox, "approval_reuse_sandbox_changed")]

/-- Malformed input fails closed as changed content. -/
def validateContextTokens (saved current : NativeValue B.F) : Option String :=
  match parseContextToken B saved, parseContextToken B current with
  | some saved, some current => compareTokens saved current
  | _, _ => some "approval_reuse_content_changed"

def validateApprovalContext (sha : Hash) (saved : NativeValue B.F)
    (components : ContextDigestComponentsV1 (NativeValue B.F)) : Except String (Option String) :=
  (buildContextToken sha B components).map (fun current => validateContextTokens B saved (.str current))

end

/-- What a comparison reports: nothing exactly when all digests agree, else the first that differs. -/
theorem compareTokens_spec (s t : ParsedContextToken) :
    (compareTokens s t = none ↔ s.identity = t.identity ∧ s.content = t.content ∧ s.capabilities = t.capabilities ∧
      s.policy = t.policy ∧ s.sandbox = t.sandbox) ∧
    (s.identity ≠ t.identity → compareTokens s t = some "approval_reuse_identity_changed") ∧
    (s.identity = t.identity → s.content ≠ t.content → compareTokens s t = some "approval_reuse_content_changed") ∧
    (s.identity = t.identity → s.content = t.content → s.capabilities ≠ t.capabilities →
      compareTokens s t = some "approval_reuse_capability_changed") ∧
    (s.identity = t.identity → s.content = t.content → s.capabilities = t.capabilities → s.policy ≠ t.policy →
      compareTokens s t = some "approval_reuse_policy_changed") ∧
    (s.identity = t.identity → s.content = t.content → s.capabilities = t.capabilities → s.policy = t.policy →
      s.sandbox ≠ t.sandbox → compareTokens s t = some "approval_reuse_sandbox_changed") := by
  simp only [compareTokens, firstDifference]
  by_cases h1 : s.identity = t.identity
  · by_cases h2 : s.content = t.content
    · by_cases h3 : s.capabilities = t.capabilities
      · by_cases h4 : s.policy = t.policy
        · by_cases h5 : s.sandbox = t.sandbox
          · simp [h1, h2, h3, h4, h5]
          · simp [h1, h2, h3, h4, h5]
        · simp [h1, h2, h3, h4]
      · simp [h1, h2, h3]
    · simp [h1, h2]
  · simp [h1]

/-! ## The material of a component determines its value -/

variable {component : String} {w : IntegerValue}

section

variable {sha : Hash} {B : Binary64}

def integerText (w : IntegerValue) : List Char := w.write quoted (fun i => intText i.val)

theorem legible_integerText : Legible quoted (fun i : NativeInt => intText i.val) codePoints
    (fun i => intToken i.val) where
  str_scan _ r := scanString_asciiString (fun _ hn => isScalar_codePoints hn) r
  num_head i := intText_head i.val
  num_read i _ hr := readNumber_intText i.val hr

theorem integerText_injective : Function.Injective integerText := fun v w h => by
  have hread := congrArg readDocument h
  rw [integerText, integerText, readDocument_write legible_integerText, readDocument_write legible_integerText] at hread
  exact JsonTree.map_injective codePoints_injective intToken_injective (Option.some.inj hread)

def wrapperTree (component : String) (w : IntegerValue) : IntegerValue :=
  .obj [("component", .str component), ("domain", .str tokenDomain), ("value", w), ("version", .num ⟨1, by decide⟩)]

theorem wrapperTree_injective {v : IntegerValue} (h : wrapperTree component v = wrapperTree component w) : v = w := by
  simp only [wrapperTree, JsonTree.obj.injEq, List.cons.injEq, Prod.mk.injEq, true_and, and_true] at h
  exact h

theorem componentMaterial_eq {m : List Char} (h : componentMaterial B component (w.map id .int) = .ok m) :
    m = integerText (wrapperTree component w) := by
  obtain ⟨material, hwrite, rfl⟩ := map_eq_ok.1 h
  obtain ⟨-, rfl, -⟩ := (appends_value _ _ _).1 hwrite
  have hvalue : contextText B (w.map id .int) = w.write quoted (fun i => intText i.val) := JsonTree.write_map w
  have hone : intText 1 = ['1'] := rfl
  rw [hvalue]
  unfold componentStart integerText wrapperTree
  generalize quoted = q
  simp only [JsonTree.write, JsonTree.writeMembers, hone, List.append_assoc, List.cons_append, List.nil_append]

def componentBytes (component : String) (w : IntegerValue) : Bytes :=
  utf8 (String.ofList (integerText (wrapperTree component w)))

theorem componentHash_eq {d : String} (h : componentHash sha B component (w.map id .int) = .ok d) :
    d = sha.hex (componentBytes component w) := by
  obtain ⟨m, hm, rfl⟩ := map_eq_ok.1 h
  rw [componentMaterial_eq hm]
  rfl

/-- **Two digests of one component agree exactly when the values do**, the hash telling their bytes apart. -/
theorem hex_componentBytes_eq_iff {v : IntegerValue}
    (hsha : sha.Separates (componentBytes component v) (componentBytes component w)) :
    sha.hex (componentBytes component v) = sha.hex (componentBytes component w) ↔ v = w := by
  constructor
  · intro h
    have htext := String.ofList_injective (utf8_injective (hsha.eq_of_hex h))
    exact wrapperTree_injective (integerText_injective htext)
  · rintro rfl
    rfl

/-! ## A built token is read back -/

/-- Five digests, each spelled as SHA-256 is. -/
structure WellFormedToken (t : ParsedContextToken) : Prop where
  identity : isHexDigest t.identity = true
  content : isHexDigest t.content = true
  capabilities : isHexDigest t.capabilities = true
  policy : isHexDigest t.policy = true
  sandbox : isHexDigest t.sandbox = true

def payloadTree (t : ParsedContextToken) : IntegerValue :=
  .obj [("capabilities", .str t.capabilities), ("content", .str t.content), ("identity", .str t.identity),
    ("policy", .str t.policy), ("sandbox", .str t.sandbox), ("version", .num ⟨1, by decide⟩)]

theorem tokenPayload_eq (t : ParsedContextToken) : tokenPayload t = integerText (payloadTree t) := by
  have hone : intText 1 = ['1'] := rfl
  unfold tokenPayload integerText payloadTree
  generalize quoted = q
  simp only [JsonTree.write, JsonTree.writeMembers, hone, List.append_assoc, List.cons_append, List.nil_append]

/-- The members the reader finds, in their order. -/
def payloadMembers (F : Type) (t : ParsedContextToken) : List (String × NativeValue F) :=
  [("capabilities", .str t.capabilities), ("content", .str t.content), ("identity", .str t.identity),
    ("policy", .str t.policy), ("sandbox", .str t.sandbox), ("version", .num (.int ⟨1, by decide⟩))]

def payloadKeys : List String := ["capabilities", "content", "identity", "policy", "sandbox", "version"]

theorem payloadKeys_nodup : payloadKeys.Nodup := by decide

theorem payloadKeys_sorted : payloadKeys.Pairwise (fun a b => bytes.le a b = true) := by decide +kernel

theorem fromStr_payload (t : ParsedContextToken) :
    fromStr B (String.ofList (tokenPayload t)) = some (.obj (payloadMembers B.F t)) := by
  have hread := readDocument_write legible_integerText (payloadTree t)
  have hkeys : ((payloadMembers B.F t).map Prod.fst).Nodup := payloadKeys_nodup
  have hsorted : (payloadMembers B.F t).Pairwise (fun a b => bytes.members a b = true) :=
    List.pairwise_map.1 (show ((payloadMembers B.F t).map Prod.fst).Pairwise _ from payloadKeys_sorted)
  have hmembers : serdeMembers B 1 (JsonTree.mapMembers codePoints (fun i : NativeInt => intToken i.val)
      [("capabilities", .str t.capabilities), ("content", .str t.content), ("identity", .str t.identity),
        ("policy", .str t.policy), ("sandbox", .str t.sandbox), ("version", .num ⟨1, by decide⟩)]) =
      some (payloadMembers B.F t) := by
    have hone := nativeNumber_intToken B ⟨1, by decide⟩
    simp only at hone
    simp only [JsonTree.mapMembers, JsonTree.map, serdeMembers, serdeValue, scalarString_codePoints, hone,
      Option.map_some, Option.bind_some, payloadMembers]
  rw [fromStr, String.toList_ofList, tokenPayload_eq, integerText, hread, Option.bind_some, payloadTree, JsonTree.map,
    serdeValue, if_neg (by decide), hmembers, Option.map_some, dictOf_of_nodup hkeys,
      List.mergeSort_of_pairwise hsorted]

theorem isSha256Hex_str {d : String} (h : isHexDigest d = true) : isSha256Hex B (.str d) = some d := if_pos h

variable {t : ParsedContextToken}

theorem tokenFields_members (ht : WellFormedToken t) :
    tokenFields B (payloadMembers B.F t) = some t := by
  have hlookup : (payloadMembers B.F t).lookup "identity" = some (.str t.identity) ∧
      (payloadMembers B.F t).lookup "content" = some (.str t.content) ∧
      (payloadMembers B.F t).lookup "capabilities" = some (.str t.capabilities) ∧
      (payloadMembers B.F t).lookup "policy" = some (.str t.policy) ∧
      (payloadMembers B.F t).lookup "sandbox" = some (.str t.sandbox) := ⟨rfl, rfl, rfl, rfl, rfl⟩
  obtain ⟨h1, h2, h3, h4, h5⟩ := hlookup
  simp only [tokenFields, h1, h2, h3, h4, h5, Option.bind_eq_bind, Option.bind_some, isSha256Hex_str ht.identity,
    isSha256Hex_str ht.content, isSha256Hex_str ht.capabilities, isSha256Hex_str ht.policy, isSha256Hex_str ht.sandbox]

theorem parseContextPayload_members (ht : WellFormedToken t) :
    parseContextPayload B (.obj (payloadMembers B.F t)) = some t := by
  have hversion : (payloadMembers B.F t).lookup "version" = some (.num (.int ⟨1, by decide⟩)) := rfl
  rw [parseContextPayload, hversion, if_neg, tokenFields_members ht]
  rintro (h | h)
  · exact h rfl
  · exact absurd h (by simp [isTokenVersion])

/-! ## Sizes -/

theorem asciiEscape_hex : ∀ c : Char, isLowerHexDigit c = true → asciiEscape c.toNat = [c] := by
  intro c hc
  have hrange : (48 ≤ c.toNat ∧ c.toNat ≤ 57) ∨ (97 ≤ c.toNat ∧ c.toNat ≤ 102) := by
    simpa [isLowerHexDigit, Char.le_def, UInt32.le_iff_toNat_le] using hc
  unfold asciiEscape
  rw [if_neg (by omega), if_neg (by omega), if_neg (by omega), if_neg (by omega), if_neg (by omega), if_neg (by omega),
    if_neg (by omega), if_neg (by omega), Char.ofNat_toNat]

theorem quoted_hexDigest {d : String} (h : isHexDigest d = true) : quoted d = '"' :: (d.toList ++ ['"']) := by
  have hall : ∀ c ∈ d.toList, isLowerHexDigit c = true := by
    rw [isHexDigest, Bool.and_eq_true, List.all_eq_true] at h
    exact h.2
  have hmap : (codePoints d).flatMap asciiEscape = d.toList := by
    rw [codePoints, List.flatMap_map]
    refine (List.flatMap_congr (fun c hc => asciiEscape_hex c (hall c hc))).trans ?_
    exact List.flatMap_singleton' d.toList
  rw [quoted, asciiString, hmap]

theorem byteLength_ascii : ∀ {cs : List Char}, (∀ c ∈ cs, c.toNat < 128) → byteLength cs = cs.length
  | [], _ => rfl
  | c :: cs, h => by
    rw [byteLength_cons, Json.utf8Size_of_lt (h c List.mem_cons_self),
      byteLength_ascii (fun d hd => h d (List.mem_cons_of_mem c hd)), List.length_cons, Nat.add_comm]

theorem byteLength_hexDigest {d : String} (h : isHexDigest d = true) : byteLength (quoted d) = 66 := by
  have hd := h
  rw [isHexDigest, Bool.and_eq_true, List.all_eq_true, beq_iff_eq] at hd
  have hlt : ∀ c ∈ d.toList, c.toNat < 128 := fun c hc => by
    have := hd.2 c hc
    simp only [isLowerHexDigit, Char.le_def, UInt32.le_iff_toNat_le, Bool.or_eq_true, Bool.and_eq_true,
      decide_eq_true_eq] at this
    have hz : 'z'.val.toNat = 122 := rfl
    have h9 : '9'.val.toNat = 57 := rfl
    have hf : 'f'.val.toNat = 102 := rfl
    change c.val.toNat < 128
    omega
  rw [quoted_hexDigest h, byteLength_cons, byteLength_append, byteLength_ascii hlt, hd.1]
  rfl

theorem byteLength_tokenPayload (ht : WellFormedToken t) : byteLength (tokenPayload t) = 403 := by
  have hkeys : byteLength (quoted "capabilities") = 14 ∧ byteLength (quoted "content") = 9 ∧
      byteLength (quoted "identity") = 10 ∧ byteLength (quoted "policy") = 8 ∧ byteLength (quoted "sandbox") = 9 ∧
      byteLength (quoted "version") = 9 := by decide +kernel
  have hmarks : byteLength ['{'] = 1 ∧ byteLength [':'] = 1 ∧ byteLength [','] = 1 ∧
      byteLength [':', '1', '}'] = 3 := by
    decide
  have hidentity := byteLength_hexDigest ht.identity
  have hcontent := byteLength_hexDigest ht.content
  have hcapabilities := byteLength_hexDigest ht.capabilities
  have hpolicy := byteLength_hexDigest ht.policy
  have hsandbox := byteLength_hexDigest ht.sandbox
  unfold tokenPayload
  generalize quoted = q at *
  simp only [byteLength_append]
  omega

theorem length_utf8_ofList (cs : List Char) : (utf8 (String.ofList cs)).length = byteLength cs := by
  rw [← utf8ByteSize_ofList, utf8, Array.length_toList]
  rfl

theorem isAlphabet_lt {c : Char} (h : Base64.isAlphabet c = true) : c.toNat < 128 := by
  simp only [Base64.isAlphabet, isAsciiAlphanumeric, Char.le_def, UInt32.le_iff_toNat_le, Bool.or_eq_true,
    Bool.and_eq_true, decide_eq_true_eq, beq_iff_eq] at h
  have hz : 'z'.val.toNat = 122 := rfl
  have hZ : 'Z'.val.toNat = 90 := rfl
  have h9 : '9'.val.toNat = 57 := rfl
  rcases h with (h | rfl) | rfl
  · change c.val.toNat < 128
    omega
  · decide
  · decide

theorem utf8ByteSize_tokenText (ht : WellFormedToken t) : (tokenText t).utf8ByteSize = 564 := by
  have hstart : approvalContextTokenStart.utf8ByteSize = 26 := by decide +kernel
  have hlt : ∀ c ∈ Base64.encode (utf8 (String.ofList (tokenPayload t))), c.toNat < 128 := fun c hc =>
    isAlphabet_lt (Base64.isAlphabet_of_mem_encode _ c hc)
  rw [tokenText, String.utf8ByteSize_append, hstart, utf8ByteSize_ofList, byteLength_ascii hlt, Base64.length_encode,
    length_utf8_ofList, byteLength_tokenPayload ht]

theorem stripStart_append (start : String) (cs : List Char) :
    stripStart start (start ++ String.ofList cs) = some cs := by
  have htext : (start ++ String.ofList cs).toList = start.toList ++ cs := by
    rw [String.toList_append, String.toList_ofList]
  rw [stripStart, htext, if_pos (List.isPrefixOf_iff_prefix.2 (List.prefix_append _ _)), List.drop_left]

/-- **A built token parses to the digests it was built from.** -/
theorem parseContextText_tokenText (ht : WellFormedToken t) :
    parseContextText B (tokenText t) = some t := by
  have hsize := utf8ByteSize_tokenText ht
  have hbytes : (utf8 (String.ofList (tokenPayload t))).length = 403 := by
    rw [length_utf8_ofList, byteLength_tokenPayload ht]
  have hne : utf8 (String.ofList (tokenPayload t)) ≠ [] := by
    intro h
    rw [h] at hbytes
    cases hbytes
  have hstrip : stripStart approvalContextTokenStart (tokenText t) =
      some (Base64.encode (utf8 (String.ofList (tokenPayload t)))) := stripStart_append _ _
  have hencoded : ¬ (approvalContextTokenMaxBytes < (tokenText t).utf8ByteSize ∨
      (Base64.encode (utf8 (String.ofList (tokenPayload t)))).isEmpty = true ∨
      (Base64.encode (utf8 (String.ofList (tokenPayload t)))).all Base64.isAlphabet = false) := by
    rintro (h | h | h)
    · rw [hsize] at h
      exact absurd h (by decide)
    · have hlen := Base64.length_encode (utf8 (String.ofList (tokenPayload t)))
      rw [List.isEmpty_iff.1 h, hbytes] at hlen
      cases hlen
    · rw [List.all_eq_true.2 (Base64.isAlphabet_of_mem_encode _)] at h
      cases h
  rw [parseContextText, hstrip]
  simp only [Option.bind_eq_bind, Option.bind_some, if_neg hencoded, Base64.decode_encode hne, decodeUtf8_utf8,
    fromStr_payload, parseContextPayload_members ht]

/-! ## Tokens of integer components -/

namespace ContextDigestComponentsV1

def native (B : Binary64) (c : ContextDigestComponentsV1 IntegerValue) : ContextDigestComponentsV1 (NativeValue B.F) :=
  ⟨c.identity.native B, c.content.native B, c.capabilities.native B, c.policy.native B, c.sandbox.native B,
    c.extension_control_digest⟩

def hashed (c : ContextDigestComponentsV1 IntegerValue) : List (String × IntegerValue) :=
  [("identity", c.identity.sorted bytes), ("content", c.content.sorted bytes),
    ("capabilities", c.capabilities.sorted bytes),
    ("policy", policyWrapped c.extension_control_digest (c.policy.sorted bytes)),
    ("sandbox", c.sandbox.sorted bytes)]

def digests (sha : Hash) (c : ContextDigestComponentsV1 IntegerValue) : ParsedContextToken :=
  ⟨sha.hex (componentBytes "identity" (c.identity.sorted bytes)),
    sha.hex (componentBytes "content" (c.content.sorted bytes)),
    sha.hex (componentBytes "capabilities" (c.capabilities.sorted bytes)),
    sha.hex (componentBytes "policy" (policyWrapped c.extension_control_digest (c.policy.sorted bytes))),
    sha.hex (componentBytes "sandbox" (c.sandbox.sorted bytes))⟩

end ContextDigestComponentsV1

theorem native_eq_map (v : IntegerValue) : v.native B = (v.sorted bytes).map id .int :=
  JsonTree.sorted_map (fun _ _ => rfl) v

theorem native_inj {v : IntegerValue} :
    v.native B = w.native B ↔ v.sorted bytes = w.sorted bytes := by
  rw [native_eq_map, native_eq_map]
  refine ⟨fun h => JsonTree.map_injective Function.injective_id ?_ h, fun h => by rw [h]⟩
  exact fun i j hij => Number.int.inj hij

theorem buildContextToken_eq {c : ContextDigestComponentsV1 IntegerValue} {token : String}
    (h : buildContextToken sha B (c.native B) = .ok token) : token = tokenText (c.digests sha) := by
  obtain ⟨t, ht, rfl⟩ := map_eq_ok.1 h
  obtain ⟨identity, hidentity, ht⟩ := bind_eq_ok.1 ht
  obtain ⟨content, hcontent, ht⟩ := bind_eq_ok.1 ht
  obtain ⟨capabilities, hcapabilities, ht⟩ := bind_eq_ok.1 ht
  obtain ⟨policy, hpolicy, ht⟩ := bind_eq_ok.1 ht
  obtain ⟨sandbox, hsandbox, ht⟩ := bind_eq_ok.1 ht
  cases ht
  have hwrapped : policyWrapped c.extension_control_digest (c.policy.native B) =
      (policyWrapped c.extension_control_digest (c.policy.sorted bytes)).map id .int := by
    rw [native_eq_map]
    rfl
  simp only [ContextDigestComponentsV1.native, native_eq_map] at hidentity hcontent hcapabilities hsandbox
  simp only [ContextDigestComponentsV1.native, hwrapped] at hpolicy
  rw [componentHash_eq hidentity, componentHash_eq hcontent, componentHash_eq hcapabilities, componentHash_eq hpolicy,
    componentHash_eq hsandbox]
  rfl

theorem wellFormedToken_digests (c : ContextDigestComponentsV1 IntegerValue) : WellFormedToken (c.digests sha) :=
  ⟨sha.isHexDigest_hex _, sha.isHexDigest_hex _, sha.isHexDigest_hex _, sha.isHexDigest_hex _, sha.isHexDigest_hex _⟩

theorem policyWrapped_inj {d e : String} {v : IntegerValue} :
    policyWrapped d (v.sorted bytes) = policyWrapped e (w.sorted bytes) ↔
      v.native B = w.native B ∧ d = e := by
  rw [native_inj]
  simp only [policyWrapped, JsonTree.obj.injEq, List.cons.injEq, Prod.mk.injEq, JsonTree.str.injEq, true_and, and_true]
  exact and_comm

end

/-- **A context token binds every component.**  Parsing a built token gives exactly the five digests.  Validating the
token of `c` against the components `d` reports nothing exactly when identity, content, capabilities, policy with its
extension-control digest, and sandbox are equal values; otherwise it reports the first of them that differs.  The hash
is assumed to tell apart the bytes hashed for one component of `c` and of `d`. -/
theorem context_token_binds (sha : Hash) (B : Binary64) (c d : ContextDigestComponentsV1 IntegerValue)
    (hsha : ∀ p ∈ c.hashed.zip d.hashed, sha.Separates (componentBytes p.1.1 p.1.2) (componentBytes p.2.1 p.2.2))
    (saved current : String) (hsaved : buildContextToken sha B (c.native B) = .ok saved)
    (hcurrent : buildContextToken sha B (d.native B) = .ok current) :
    parseContextToken B (.str saved) = some (c.digests sha) ∧
    ∃ reason, validateApprovalContext B sha (.str saved) (d.native B) = .ok reason ∧
      (reason = none ↔ c.identity.native B = d.identity.native B ∧ c.content.native B = d.content.native B ∧
        c.capabilities.native B = d.capabilities.native B ∧
        (c.policy.native B = d.policy.native B ∧ c.extension_control_digest = d.extension_control_digest) ∧
        c.sandbox.native B = d.sandbox.native B) ∧
      (c.identity.native B ≠ d.identity.native B → reason = some "approval_reuse_identity_changed") ∧
      (c.identity.native B = d.identity.native B → c.content.native B ≠ d.content.native B →
        reason = some "approval_reuse_content_changed") ∧
      (c.identity.native B = d.identity.native B → c.content.native B = d.content.native B →
        c.capabilities.native B ≠ d.capabilities.native B → reason = some "approval_reuse_capability_changed") ∧
      (c.identity.native B = d.identity.native B → c.content.native B = d.content.native B →
        c.capabilities.native B = d.capabilities.native B →
        ¬ (c.policy.native B = d.policy.native B ∧ c.extension_control_digest = d.extension_control_digest) →
        reason = some "approval_reuse_policy_changed") ∧
      (c.identity.native B = d.identity.native B → c.content.native B = d.content.native B →
        c.capabilities.native B = d.capabilities.native B →
        (c.policy.native B = d.policy.native B ∧ c.extension_control_digest = d.extension_control_digest) →
        c.sandbox.native B ≠ d.sandbox.native B → reason = some "approval_reuse_sandbox_changed") := by
  obtain rfl := buildContextToken_eq hsaved
  obtain rfl := buildContextToken_eq hcurrent
  have hparse := parseContextText_tokenText (B := B) (@wellFormedToken_digests sha c)
  have hparse' := parseContextText_tokenText (B := B) (@wellFormedToken_digests sha d)
  simp only [ContextDigestComponentsV1.hashed, List.zip_cons_cons, List.zip_nil_right, List.forall_mem_cons,
    List.not_mem_nil, false_implies, implies_true, and_true] at hsha
  obtain ⟨h1, h2, h3, h4, h5⟩ := hsha
  have hidentity := (hex_componentBytes_eq_iff h1).trans (native_inj (B := B)).symm
  have hcontent := (hex_componentBytes_eq_iff h2).trans (native_inj (B := B)).symm
  have hcapabilities := (hex_componentBytes_eq_iff h3).trans (native_inj (B := B)).symm
  have hpolicy := (hex_componentBytes_eq_iff h4).trans (policyWrapped_inj (B := B))
  have hsandbox := (hex_componentBytes_eq_iff h5).trans (native_inj (B := B)).symm
  have hvalidate : validateApprovalContext B sha (.str (tokenText (c.digests sha))) (d.native B) =
      .ok (compareTokens (c.digests sha) (d.digests sha)) := by
    rw [validateApprovalContext, hcurrent]
    simp only [Except.map, validateContextTokens, parseContextToken, hparse, hparse']
  refine ⟨hparse, _, hvalidate, ?_⟩
  have hspec := compareTokens_spec (c.digests sha) (d.digests sha)
  simp only [ContextDigestComponentsV1.digests, ne_eq, hidentity, hcontent, hcapabilities, hpolicy, hsandbox] at hspec
  exact hspec

/-! ## Two contexts that differ in their identity -/

theorem componentHash_ok {sha : Hash} {B : Binary64}
    (h : (integerText (wrapperTree component w)).length ≤ contextComponentMaxBytes) :
    componentHash sha B component (w.map id .int) = .ok (sha.hex (componentBytes component w)) := by
  have hfinite : (w.map id (Number.int (F := B.F))).EveryNumber (FiniteNumber B) :=
    (JsonTree.everyNumber_map w).2 (JsonTree.everyNumber_of_forall (fun _ => trivial) w)
  have hvalue : contextText B (w.map id .int) = w.write quoted (fun i => intText i.val) := JsonTree.write_map w
  have hwrite := (@appends_value B contextComponentMaxBytes (w.map id .int) (componentStart component) _).2
    ⟨hfinite, rfl, ?_⟩
  · have hmaterial : ∃ m, componentMaterial B component (w.map id .int) = .ok m := ⟨_, map_eq_ok.2 ⟨_, hwrite, rfl⟩⟩
    obtain ⟨m, hm⟩ := hmaterial
    refine map_eq_ok.2 ⟨m, hm, ?_⟩
    rw [componentMaterial_eq hm]
    rfl
  · refine Nat.le_trans ?_ h
    rw [hvalue]
    unfold componentStart integerText wrapperTree
    generalize quoted = q
    simp only [JsonTree.write, JsonTree.writeMembers, List.length_append, List.length_cons, List.length_nil]
    omega

def sampleComponents (identity : IntegerValue) : ContextDigestComponentsV1 IntegerValue :=
  ⟨identity, .null, .null, .null, .null, ""⟩

theorem buildContextToken_sample (sha : Hash) (B : Binary64) (b : Bool) :
    ∃ token, buildContextToken sha B ((sampleComponents (.bool b)).native B) = .ok token := by
  have hidentity : ∀ b, (integerText (wrapperTree "identity" (.bool b))).length ≤ contextComponentMaxBytes := by
    decide +kernel
  have hcontent : (integerText (wrapperTree "content" .null)).length ≤ contextComponentMaxBytes := by decide +kernel
  have hcapabilities : (integerText (wrapperTree "capabilities" .null)).length ≤ contextComponentMaxBytes := by
    decide +kernel
  have hpolicy : (integerText (wrapperTree "policy" (policyWrapped "" .null))).length ≤ contextComponentMaxBytes := by
    decide +kernel
  have hsandbox : (integerText (wrapperTree "sandbox" .null)).length ≤ contextComponentMaxBytes := by decide +kernel
  refine ⟨_,
    map_eq_ok.2 ⟨_, bind_eq_ok.2 ⟨_, componentHash_ok (hidentity b), bind_eq_ok.2 ⟨_, componentHash_ok hcontent,
    bind_eq_ok.2 ⟨_, componentHash_ok hcapabilities, bind_eq_ok.2 ⟨_, componentHash_ok hpolicy, bind_eq_ok.2
      ⟨_, componentHash_ok hsandbox, rfl⟩⟩⟩⟩⟩, rfl⟩⟩

def oneTextHash (known : Bytes) : Hash where
  digest bytes := if bytes = known then List.replicate 32 1 else List.replicate 32 0
  length_digest bytes := by split <;> rfl

theorem oneTextHash_separates (known other : Bytes) : (oneTextHash known).Separates known other := by
  intro h
  by_contra hne
  simp only [oneTextHash, if_pos, if_neg (Ne.symm hne)] at h
  exact absurd h (by decide)

theorem context_token_binds_sample : ∃ saved,
    validateApprovalContext Binary64.integral (oneTextHash (componentBytes "identity" (.bool true))) (.str saved)
      ((sampleComponents (.bool false)).native _) = .ok (some "approval_reuse_identity_changed") := by
  obtain ⟨saved, hsaved⟩ := buildContextToken_sample
    (oneTextHash (componentBytes "identity" (.bool true))) Binary64.integral true
  obtain ⟨current, hcurrent⟩ := buildContextToken_sample
    (oneTextHash (componentBytes "identity" (.bool true))) Binary64.integral false
  have hsha : ∀ p ∈ (sampleComponents (.bool true)).hashed.zip (sampleComponents (.bool false)).hashed,
      (oneTextHash (componentBytes "identity" (.bool true))).Separates (componentBytes p.1.1 p.1.2)
        (componentBytes p.2.1 p.2.2) := by
    intro p hp
    simp only [ContextDigestComponentsV1.hashed, sampleComponents, List.zip_cons_cons, List.zip_nil_right,
      List.mem_cons, List.not_mem_nil, or_false] at hp
    rcases hp with rfl | rfl | rfl | rfl | rfl
    · exact oneTextHash_separates _ _
    · exact fun _ => rfl
    · exact fun _ => rfl
    · exact fun _ => rfl
    · exact fun _ => rfl
  obtain ⟨-, reason, hvalidate, -, hidentity, -⟩ := context_token_binds _ _ (sampleComponents (.bool true))
    (sampleComponents (.bool false)) hsha saved current hsaved hcurrent
  have hdiffer : (sampleComponents (.bool true)).identity.native Binary64.integral ≠
      (sampleComponents (.bool false)).identity.native Binary64.integral := fun h => by cases h
  rw [hidentity hdiffer] at hvalidate
  exact ⟨saved, hvalidate⟩

end Guard.Wire
