import HolGuard.Lib.Codec
import HolGuard.Lib.Text
/-!
# JSON values within limits

A reader with limits refuses values that nest too deep, hold too many items in one container, or hold too long a string.
`shaped` is the first two, with the form a reader's own values have (numbers of 64 bits, keys strictly increasing);
`stringsWithin` is the third, and a value's text bounds it (`stringsWithin_text`).
-/
namespace Lib

def fitsU64 (n : Nat) : Bool := decide (n < 2 ^ 64)

namespace Json

/-! ## Shape -/

mutual

/-- At most `items` in every container and at most `levels` containers inside each other. -/
def shaped (items : Nat) : Nat → Json → Bool
  | _, .null => true
  | _, .bool _ => true
  | _, .num n => fitsU64 n
  | _, .str _ => true
  | levels, .arr vs => decide (vs.length ≤ items) && shapedItems items levels vs
  | levels, .obj ms => decide (ms.length ≤ items) && decide ((ms.map Prod.fst).Pairwise (· < ·)) &&
      shapedMembers items levels ms

def shapedItems (items : Nat) : Nat → List Json → Bool
  | _, [] => true
  | 0, _ :: _ => false
  | levels + 1, v :: vs => shaped items levels v && shapedItems items (levels + 1) vs

def shapedMembers (items : Nat) : Nat → List (String × Json) → Bool
  | _, [] => true
  | 0, _ :: _ => false
  | levels + 1, (_, v) :: ms => shaped items levels v && shapedMembers items (levels + 1) ms

end

variable {items levels : Nat}

theorem shapedItems_succ : ∀ vs : List Json,
    shapedItems items (levels + 1) vs = vs.all (shaped items levels)
  | [] => by simp [shapedItems]
  | v :: vs => by simp [shapedItems, shapedItems_succ vs]

theorem shapedMembers_succ : ∀ ms : List (String × Json),
    shapedMembers items (levels + 1) ms = ms.all (fun q => shaped items levels q.2)
  | [] => by simp [shapedMembers]
  | (k, v) :: ms => by simp [shapedMembers, shapedMembers_succ ms]

@[simp] theorem shaped_null : shaped items levels .null = true := by rw [shaped]

@[simp] theorem shaped_bool (b : Bool) : shaped items levels (.bool b) = true := by rw [shaped]

@[simp] theorem shaped_str (s : String) : shaped items levels (.str s) = true := by rw [shaped]

@[simp] theorem shaped_num (n : Nat) : shaped items levels (.num n) = fitsU64 n := by rw [shaped]

theorem shaped_arr {vs : List Json} : shaped items (levels + 1) (.arr vs) = true ↔
    vs.length ≤ items ∧ ∀ v ∈ vs, shaped items levels v = true := by
  rw [shaped, shapedItems_succ, Bool.and_eq_true, decide_eq_true_iff, List.all_eq_true]

theorem shaped_obj {ms : List (String × Json)} : shaped items (levels + 1) (.obj ms) = true ↔
    ms.length ≤ items ∧ (ms.map Prod.fst).Pairwise (· < ·) ∧ ∀ q ∈ ms, shaped items levels q.2 = true := by
  rw [shaped, shapedMembers_succ, Bool.and_eq_true, Bool.and_eq_true, decide_eq_true_iff, decide_eq_true_iff,
    List.all_eq_true, and_assoc]

/-! The shape of what codecs write. -/

section

variable {α : Type}

theorem shaped_list (c : Codec α) {l : List α} (hlen : l.length ≤ items)
    (h : ∀ a ∈ l, shaped items levels (c.encode a) = true) : shaped items (levels + 1) (c.list.encode l) = true := by
  rw [Codec.list, shaped_arr, List.length_map]
  refine ⟨hlen, fun v hv => ?_⟩
  obtain ⟨a, ha, rfl⟩ := List.mem_map.1 hv
  exact h a ha

theorem shaped_sortedMap (c : Codec α) {m : SortedMap α} (hlen : m.pairs.length ≤ items)
    (h : ∀ q ∈ m.pairs, shaped items levels (c.encode q.2) = true) :
    shaped items (levels + 1) ((SortedMap.codec c).encode m) = true := by
  rw [SortedMap.codec, shaped_obj, List.length_map, List.map_map]
  refine ⟨hlen, m.sorted, fun v hv => ?_⟩
  obtain ⟨q, hq, rfl⟩ := List.mem_map.1 hv
  exact h q hq

theorem shaped_nullable (c : Codec α) (hc : ∀ a, c.encode a ≠ .null) {o : Option α}
    (h : ∀ a, o = some a → shaped items levels (c.encode a) = true) :
    shaped items levels ((c.nullable hc).encode o) = true := by
  cases o with
  | none => exact shaped_null
  | some a => exact h a rfl

/-- A record whose members, in order, have some of the known keys. -/
theorem shaped_record {ms : List (String × Json)} (known : List String) (hkeys : (ms.map Prod.fst).Sublist known)
    (hsorted : known.Pairwise (· < ·)) (hlen : known.length ≤ items)
    (h : ∀ q ∈ ms, shaped items levels q.2 = true) : shaped items (levels + 1) (.obj ms) = true := by
  rw [shaped_obj]
  refine ⟨?_, hsorted.sublist hkeys, h⟩
  rw [← List.length_map (f := Prod.fst)]
  exact Nat.le_trans hkeys.length_le hlen

theorem keys_someMember (c : Codec (Option α)) (key : String) (a : Option α) :
    ((someMember c key a).map Prod.fst).Sublist [key] := by
  cases a with
  | none => exact List.nil_sublist _
  | some a => exact List.Sublist.refl _

theorem keys_mapMember (c : Codec α) (key : String) (m : SortedMap α) :
    ((mapMember c key m).map Prod.fst).Sublist [key] := by
  unfold mapMember
  split
  · exact List.nil_sublist _
  · exact List.Sublist.refl _

theorem forall_someMember {c : Codec (Option α)} {key : String} {o : Option α}
    (h : ∀ a, o = some a → shaped items levels (c.encode (some a)) = true) :
    ∀ q ∈ someMember c key o, shaped items levels q.2 = true := by
  cases o with
  | none => exact fun q hq => absurd hq List.not_mem_nil
  | some a => exact fun q hq => List.mem_singleton.1 hq ▸ h a rfl

theorem forall_mapMember {c : Codec α} {key : String} {m : SortedMap α}
    (h : shaped items levels ((SortedMap.codec c).encode m) = true) :
    ∀ q ∈ mapMember c key m, shaped items levels q.2 = true := by
  unfold mapMember
  split
  · exact fun q hq => absurd hq List.not_mem_nil
  · exact fun q hq => List.mem_singleton.1 hq ▸ h

end

/-! ## String lengths -/

mutual

def stringsWithin (bytes : Nat) : Json → Bool
  | .null => true
  | .bool _ => true
  | .num _ => true
  | .str s => decide (s.utf8ByteSize ≤ bytes)
  | .arr vs => stringsWithinItems bytes vs
  | .obj ms => stringsWithinMembers bytes ms

def stringsWithinItems (bytes : Nat) : List Json → Bool
  | [] => true
  | v :: vs => stringsWithin bytes v && stringsWithinItems bytes vs

def stringsWithinMembers (bytes : Nat) : List (String × Json) → Bool
  | [] => true
  | (k, v) :: ms => decide (k.utf8ByteSize ≤ bytes) && stringsWithin bytes v && stringsWithinMembers bytes ms

end

theorem utf8Size_of_lt {c : Char} (h : c.toNat < 128) : c.utf8Size = 1 := by
  have hv : c.val ≤ 0x7f := UInt32.le_iff_toNat_le.2 (Nat.le_of_lt_succ h)
  simp [Char.utf8Size, hv]

theorem utf8Size_le_escapeChar (c : Char) : c.utf8Size ≤ byteLength (escapeChar c) := by
  -- what is escaped is one byte long, and its escape is not empty
  by_cases hc : c.toNat < 128
  · rw [utf8Size_of_lt hc]
    unfold escapeChar
    split_ifs <;> simp only [byteLength_cons] <;> exact Nat.le_trans (Char.utf8Size_pos _) (Nat.le_add_right _ _)
  · have hplain : escapeChar c = [c] := by
      unfold escapeChar
      have hne : ∀ d : Char, d.toNat < 128 → c ≠ d := by rintro d hd rfl; exact hc hd
      rw [if_neg (hne _ (by decide)), if_neg (hne _ (by decide)), if_neg (hne _ (by decide)),
        if_neg (hne _ (by decide)), if_neg (hne _ (by decide)), if_neg (by omega), if_neg (by omega), if_neg (by omega)]
    rw [hplain]
    simp [byteLength]

theorem utf8ByteSize_le_writeString (s : String) : s.utf8ByteSize ≤ byteLength (writeString s) := by
  have hescape : ∀ cs : List Char, byteLength cs ≤ byteLength (cs.flatMap escapeChar) := by
    intro cs
    induction cs with
    | nil => exact Nat.le_refl _
    | cons c cs ih =>
      rw [List.flatMap_cons, byteLength_append, byteLength_cons]
      exact Nat.add_le_add (utf8Size_le_escapeChar c) ih
  have := hescape s.toList
  rw [← utf8ByteSize_ofList, String.ofList_toList] at this
  rw [writeString, byteLength_cons, byteLength_append]
  omega

mutual

theorem stringsWithin_write {bytes : Nat} :
    ∀ v : Json, byteLength (JsonTree.write writeString (Nat.toDigits 10) v) ≤ bytes → stringsWithin bytes v = true
  | .null, _ => by rw [stringsWithin]
  | .bool _, _ => by rw [stringsWithin]
  | .num _, _ => by rw [stringsWithin]
  | .str s, h => by
    rw [JsonTree.write] at h
    rw [stringsWithin, decide_eq_true_iff]
    exact Nat.le_trans (utf8ByteSize_le_writeString s) h
  | .arr [], _ => by rw [stringsWithin, stringsWithinItems]
  | .arr (v :: vs), h => by
    rw [JsonTree.write, byteLength_cons, byteLength_append] at h
    rw [stringsWithin, stringsWithinItems, Bool.and_eq_true]
    exact ⟨stringsWithin_write v (by omega), stringsWithin_writeItems vs (by omega)⟩
  | .obj [], _ => by rw [stringsWithin, stringsWithinMembers]
  | .obj ((k, v) :: ms), h => by
    rw [JsonTree.write, byteLength_cons, byteLength_append, byteLength_cons, byteLength_append] at h
    have := utf8ByteSize_le_writeString k
    rw [stringsWithin, stringsWithinMembers, Bool.and_eq_true, Bool.and_eq_true, decide_eq_true_iff]
    exact ⟨⟨by omega, stringsWithin_write v (by omega)⟩, stringsWithin_writeMembers ms (by omega)⟩

theorem stringsWithin_writeItems {bytes : Nat} :
    ∀ vs : List Json, byteLength (JsonTree.writeItems writeString (Nat.toDigits 10) vs) ≤ bytes →
    stringsWithinItems bytes vs = true
  | [], _ => by rw [stringsWithinItems]
  | v :: vs, h => by
    rw [JsonTree.writeItems, byteLength_cons, byteLength_append] at h
    rw [stringsWithinItems, Bool.and_eq_true]
    exact ⟨stringsWithin_write v (by omega), stringsWithin_writeItems vs (by omega)⟩

theorem stringsWithin_writeMembers {bytes : Nat} :
    ∀ ms : List (String × Json), byteLength (JsonTree.writeMembers writeString (Nat.toDigits 10) ms) ≤ bytes →
    stringsWithinMembers bytes ms = true
  | [], _ => by rw [stringsWithinMembers]
  | (k, v) :: ms, h => by
    rw [JsonTree.writeMembers, byteLength_cons, byteLength_append, byteLength_cons, byteLength_append] at h
    have := utf8ByteSize_le_writeString k
    rw [stringsWithinMembers, Bool.and_eq_true, Bool.and_eq_true, decide_eq_true_iff]
    exact ⟨⟨by omega, stringsWithin_write v (by omega)⟩, stringsWithin_writeMembers ms (by omega)⟩

end

/-- **A value's text bounds every string in it.** -/
theorem stringsWithin_text {v : Json} {bytes : Nat} (h : v.text.utf8ByteSize ≤ bytes) :
    stringsWithin bytes v = true := by
  rw [text, utf8ByteSize_ofList] at h
  exact stringsWithin_write v h

/-! ## A bound of the text's length that does not spell the strings out -/

theorem byteLength_escapeChar (c : Char) : byteLength (escapeChar c) ≤ 6 * c.utf8Size := by
  have hpos := Char.utf8Size_pos c
  have htwo : ∀ d ∈ ['"', '\\', 'n', 'r', 't', 'b', 'f'], byteLength ['\\', d] ≤ 6 * c.utf8Size := by
    have hlen : ['"', '\\', 'n', 'r', 't', 'b', 'f'].all (fun d => byteLength ['\\', d] == 2) = true := by decide
    intro d hd
    have := beq_iff_eq.1 (List.all_eq_true.1 hlen d hd)
    omega
  have hdigit : ∀ n, n < 16 → (hexDigit n).utf8Size = 1 := by decide
  have hnil : byteLength [] = 0 := rfl
  unfold escapeChar
  split_ifs
  any_goals exact htwo _ (by decide)
  · have hhead : byteLength ['\\', 'u', '0', '0'] = 4 := by decide
    show byteLength (['\\', 'u', '0', '0'] ++ [hexDigit (c.toNat / 16), hexDigit (c.toNat % 16)]) ≤ _
    rw [byteLength_append, hhead, byteLength_cons, byteLength_cons, hdigit _ (by omega), hdigit _ (by omega)]
    omega
  · simp only [byteLength_cons]
    omega

/-- A string as long as the text of another may get. -/
def longestText (s : String) : List Char := List.replicate (6 * s.utf8ByteSize + 2) ' '

theorem byteLength_writeString (s : String) : byteLength (writeString s) ≤ byteLength (longestText s) := by
  have hescape : ∀ cs : List Char, byteLength (cs.flatMap escapeChar) ≤ 6 * byteLength cs := by
    intro cs
    induction cs with
    | nil => exact Nat.le_refl _
    | cons c cs ih =>
      have := byteLength_escapeChar c
      rw [List.flatMap_cons, byteLength_append, byteLength_cons]
      omega
  have := hescape s.toList
  have hsize : byteLength s.toList = s.utf8ByteSize := by rw [← utf8ByteSize_ofList, String.ofList_toList]
  have hlongest : byteLength (longestText s) = 6 * s.utf8ByteSize + 2 := by
    simp [byteLength, longestText, show (' ' : Char).utf8Size = 1 from rfl]
  have hquote : ('"' : Char).utf8Size = 1 := rfl
  have hnil : byteLength [] = 0 := rfl
  rw [writeString, byteLength_cons, byteLength_append, byteLength_cons, hquote]
  omega

section Longer

variable {str str' : String → List Char} {num : Nat → List Char}

mutual

theorem byteLength_write (h : ∀ s, byteLength (str s) ≤ byteLength (str' s)) : ∀ v : Json,
    byteLength (JsonTree.write str num v) ≤ byteLength (JsonTree.write str' num v)
  | .null | .bool true | .bool false | .num _ | .arr [] | .obj [] => Nat.le_refl _
  | .str s => h s
  | .arr (v :: vs) => by
    simp only [JsonTree.write, byteLength_cons, byteLength_append]
    have := byteLength_write h v
    have := byteLength_writeItems h vs
    omega
  | .obj ((k, v) :: ms) => by
    simp only [JsonTree.write, byteLength_cons, byteLength_append]
    have := h k
    have := byteLength_write h v
    have := byteLength_writeMembers h ms
    omega

theorem byteLength_writeItems (h : ∀ s, byteLength (str s) ≤ byteLength (str' s)) : ∀ vs : List Json,
    byteLength (JsonTree.writeItems str num vs) ≤ byteLength (JsonTree.writeItems str' num vs)
  | [] => Nat.le_refl _
  | v :: vs => by
    simp only [JsonTree.writeItems, byteLength_cons, byteLength_append]
    have := byteLength_write h v
    have := byteLength_writeItems h vs
    omega

theorem byteLength_writeMembers (h : ∀ s, byteLength (str s) ≤ byteLength (str' s)) : ∀ ms : List (String × Json),
    byteLength (JsonTree.writeMembers str num ms) ≤ byteLength (JsonTree.writeMembers str' num ms)
  | [] => Nat.le_refl _
  | (k, v) :: ms => by
    simp only [JsonTree.writeMembers, byteLength_cons, byteLength_append]
    have := h k
    have := byteLength_write h v
    have := byteLength_writeMembers h ms
    omega

end

end Longer

theorem utf8ByteSize_text (v : Json) :
    v.text.utf8ByteSize ≤ 4 * (JsonTree.write longestText (Nat.toDigits 10) v).length := by
  rw [text, utf8ByteSize_ofList]
  exact (byteLength_write byteLength_writeString v).trans (byteLength_le _)

/-! ## Readers -/

/-- What a JSON reader is assumed to do: it reads the canonical text of a value back, when the value is one of its own
and nests no deeper than readers allow. -/
structure Reader where
  read : String → Option Json
  read_text : ∀ {items levels : Nat} {v : Json}, levels ≤ 127 → shaped items levels v = true → read v.text = some v

/-- A reader of canonical text only. -/
def Reader.canonical : Reader := ⟨parse, fun _ _ => parse_text _⟩

end Json
end Lib
