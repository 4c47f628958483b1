import HolGuard.Lib.Bytes
import HolGuard.Lib.JsonTree
import Mathlib.Data.List.Lex
/-!
# Two orders of strings

Rust compares strings by their UTF-8 bytes, Python by their code points.  UTF-8 is monotone character by character, and
no encoded character is the beginning of another, so the two orders of strings are one (`byteCodes_le_iff`).
-/
namespace Lib

def codePoints (s : String) : List Nat := s.toList.map Char.toNat

theorem toNat_injective : Function.Injective Char.toNat := fun a b h => by
  rw [← Char.ofNat_toNat a, h, Char.ofNat_toNat]

theorem codePoints_injective : Function.Injective codePoints := fun _ _ h =>
  String.toList_injective (toNat_injective.list_map h)

/-! ## Encodings that keep the order of their symbols -/

section Encoding

variable {α : Type} {code : α → Nat} {enc : α → List Nat}

/-- Symbols are told apart, and ordered, before any encoded symbol ends. -/
def OrderedEncoding (code : α → Nat) (enc : α → List Nat) : Prop :=
  (∀ a, enc a ≠ []) ∧ ∀ a b x y, code a < code b → enc a ++ x < enc b ++ y

theorem OrderedEncoding.flatMap_lt (he : OrderedEncoding code enc) (hcode : Function.Injective code) :
    ∀ {s t : List α}, s.map code < t.map code → s.flatMap enc < t.flatMap enc
  | [], [], h => absurd h (lt_irrefl _)
  | [], b :: t, _ => by
    obtain ⟨x, l, hx⟩ := List.exists_cons_of_ne_nil (he.1 b)
    rw [List.flatMap_cons, hx]
    exact List.nil_lt_cons _ _
  | a :: s, [], h => absurd h (List.not_lt_nil _)
  | a :: s, b :: t, h => by
    rw [List.map_cons, List.map_cons, List.cons_lt_cons_iff] at h
    rw [List.flatMap_cons, List.flatMap_cons]
    rcases h with h | ⟨h, hst⟩
    · exact he.2 a b _ _ h
    · rw [hcode h]
      exact List.append_left_lt (he.flatMap_lt hcode hst)

theorem OrderedEncoding.flatMap_le_iff (he : OrderedEncoding code enc) (hcode : Function.Injective code)
    (s t : List α) : s.flatMap enc ≤ t.flatMap enc ↔ s.map code ≤ t.map code := by
  constructor
  · intro h
    by_contra hlt
    exact absurd (he.flatMap_lt hcode (not_le.1 hlt)) (not_lt.2 h)
  · intro h
    rcases eq_or_lt_of_le h with heq | hlt
    · rw [hcode.list_map heq]
    · exact le_of_lt (he.flatMap_lt hcode hlt)

end Encoding

/-! ## UTF-8 -/

def utf8Codes (c : Char) : List Nat := (String.utf8EncodeChar c).map UInt8.toNat

def utf8Numbers (n : Nat) : List Nat :=
  if n ≤ 127 then [n]
  else if n ≤ 2047 then [n / 64 + 192, n % 64 + 128]
  else if n ≤ 65535 then [n / 4096 + 224, n / 64 % 64 + 128, n % 64 + 128]
  else [n / 262144 + 240, n / 4096 % 64 + 128, n / 64 % 64 + 128, n % 64 + 128]

theorem toNat_lt (c : Char) : c.toNat < 1114112 := by
  rcases c.valid with h | ⟨-, h⟩
  · exact Nat.lt_trans h (by decide)
  · exact h

theorem utf8Codes_eq (c : Char) : utf8Codes c = utf8Numbers c.toNat := by
  have hmax := toNat_lt c
  unfold utf8Codes String.utf8EncodeChar utf8Numbers Char.toNat at *
  generalize c.val.toNat = n at hmax ⊢
  simp only
  split
  · simp only [List.map_cons, List.map_nil, UInt8.toNat_ofNat', List.cons.injEq, and_true]
    omega
  split
  · simp only [List.map_cons, List.map_nil, UInt8.toNat_ofNat', List.cons.injEq, and_true]
    omega
  split
  · simp only [List.map_cons, List.map_nil, UInt8.toNat_ofNat', List.cons.injEq, and_true]
    omega
  · simp only [List.map_cons, List.map_nil, UInt8.toNat_ofNat', List.cons.injEq, and_true]
    omega

theorem utf8Numbers_lt {m n : Nat} (h : m < n) (hn : n < 1114112) (x y : List Nat) :
    utf8Numbers m ++ x < utf8Numbers n ++ y := by
  unfold utf8Numbers
  -- the lead byte grows with the length; within one length the first byte that differs decides
  split <;> split <;> (try split) <;> (try split) <;> (try split) <;> (try split) <;>
    simp only [List.cons_append, List.nil_append, List.cons_lt_cons_iff] <;> omega

theorem orderedEncoding_utf8 : OrderedEncoding Char.toNat utf8Codes := by
  refine ⟨fun c => ?_, fun a b x y h => ?_⟩
  · rw [utf8Codes_eq]
    unfold utf8Numbers
    split <;> (try split) <;> (try split) <;> exact List.cons_ne_nil _ _
  · rw [utf8Codes_eq, utf8Codes_eq]
    exact utf8Numbers_lt h (toNat_lt b) x y

theorem utf8_eq_flatMap (s : String) : utf8 s = s.toList.flatMap String.utf8EncodeChar := by
  unfold utf8
  rw [← String.utf8Encode_toList, List.utf8Encode, List.data_toByteArray]

/-- The bytes of a string, as numbers, which is how Rust compares them. -/
def byteCodes (s : String) : List Nat := (utf8 s).map UInt8.toNat

theorem byteCodes_eq_flatMap (s : String) : byteCodes s = s.toList.flatMap utf8Codes := by
  rw [byteCodes, utf8_eq_flatMap, List.map_flatMap]
  rfl

/-- **The order of UTF-8 bytes is the order of code points.** -/
theorem byteCodes_le_iff (s t : String) : byteCodes s ≤ byteCodes t ↔ codePoints s ≤ codePoints t := by
  rw [byteCodes_eq_flatMap, byteCodes_eq_flatMap]
  exact orderedEncoding_utf8.flatMap_le_iff toNat_injective _ _

/-- The text some bytes encode. -/
def decodeUtf8 (bytes : Bytes) : Option String := String.fromUTF8? bytes.toByteArray

theorem decodeUtf8_eq_some {bytes : Bytes} {s : String} : decodeUtf8 bytes = some s ↔ utf8 s = bytes := by
  have hbytes : s.toByteArray = bytes.toByteArray ↔ utf8 s = bytes := by
    rw [utf8, ByteArray.ext_iff, List.data_toByteArray, ← Array.toList_inj]
  rw [← hbytes]
  unfold decodeUtf8 String.fromUTF8?
  constructor
  · intro h
    split at h
    · cases h
      rfl
    · cases h
  · intro h
    rw [← h, dif_pos s.isValidUTF8]
    rfl

@[simp] theorem decodeUtf8_utf8 (s : String) : decodeUtf8 (utf8 s) = some s := decodeUtf8_eq_some.2 rfl

/-! ## Key orders -/

/-- Python's order of strings. -/
def KeyOrder.codes : KeyOrder (List Nat) where
  le a b := decide (a ≤ b)
  trans _ _ _ h h' := decide_eq_true (le_trans (of_decide_eq_true h) (of_decide_eq_true h'))
  total a b := by
    rw [Bool.or_eq_true, decide_eq_true_eq, decide_eq_true_eq]
    exact le_total a b

/-- Rust's order of strings. -/
def KeyOrder.bytes : KeyOrder String where
  le a b := decide (byteCodes a ≤ byteCodes b)
  trans _ _ _ h h' := decide_eq_true (le_trans (of_decide_eq_true h) (of_decide_eq_true h'))
  total a b := by
    rw [Bool.or_eq_true, decide_eq_true_eq, decide_eq_true_eq]
    exact le_total _ _

theorem bytes_le_eq (s t : String) : KeyOrder.bytes.le s t = KeyOrder.codes.le (codePoints s) (codePoints t) :=
  decide_eq_decide.2 (byteCodes_le_iff s t)

/-! ## Sorting without repeats -/

section

variable {α : Type} [DecidableEq α]

/-- `Vec::dedup` -/
def dedupAdjacent : List α → List α
  | [] => []
  | [a] => [a]
  | a :: b :: l => if a = b then dedupAdjacent (b :: l) else a :: dedupAdjacent (b :: l)

theorem mem_dedupAdjacent {x : α} : ∀ {l : List α}, x ∈ dedupAdjacent l ↔ x ∈ l
  | [] => Iff.rfl
  | [a] => Iff.rfl
  | a :: b :: l => by
    unfold dedupAdjacent
    by_cases hab : a = b
    · rw [if_pos hab, mem_dedupAdjacent, hab]
      simp
    · rw [if_neg hab, List.mem_cons, mem_dedupAdjacent, List.mem_cons (a := x) (b := a)]

/-- In a list in order equal entries stand together, so what `dedup` leaves is strictly in order. -/
theorem pairwise_dedupAdjacent {r : α → α → Prop} (hanti : ∀ a b, r a b → r b a → a = b) :
    ∀ {l : List α}, l.Pairwise r → (dedupAdjacent l).Pairwise (fun a b => r a b ∧ a ≠ b)
  | [], _ => List.Pairwise.nil
  | [a], _ => List.pairwise_singleton _ _
  | a :: b :: l, h => by
    unfold dedupAdjacent
    obtain ⟨ha, hrest⟩ := List.pairwise_cons.1 h
    by_cases hab : a = b
    · rw [if_pos hab]
      exact pairwise_dedupAdjacent hanti hrest
    · rw [if_neg hab, List.pairwise_cons]
      refine ⟨fun x hx => ?_, pairwise_dedupAdjacent hanti hrest⟩
      have hx : x ∈ b :: l := mem_dedupAdjacent.1 hx
      refine ⟨ha x hx, fun hax => hab ?_⟩
      subst hax
      rcases List.mem_cons.1 hx with hb | hl
      · exact hb
      · exact hanti a b (ha b List.mem_cons_self) ((List.pairwise_cons.1 hrest).1 a hl)

end

theorem KeyOrder.bytes_antisymm (a b : String) (h : KeyOrder.bytes.le a b = true) (h' : KeyOrder.bytes.le b a = true) :
    a = b := by
  rw [bytes_le_eq] at h h'
  exact codePoints_injective (le_antisymm (of_decide_eq_true h) (of_decide_eq_true h'))

/-- `sort` and `dedup` of a vector of strings. -/
def sortedDistinct (keys : List String) : List String := dedupAdjacent (keys.mergeSort KeyOrder.bytes.le)

theorem mem_sortedDistinct {key : String} {keys : List String} : key ∈ sortedDistinct keys ↔ key ∈ keys := by
  rw [sortedDistinct, mem_dedupAdjacent, List.mem_mergeSort]

/-- **Only the set of the keys matters.** -/
theorem sortedDistinct_congr {keys keys' : List String} (h : ∀ key, key ∈ keys ↔ key ∈ keys') :
    sortedDistinct keys = sortedDistinct keys' := by
  have hsorted : ∀ ks : List String, (sortedDistinct ks).Pairwise KeyOrder.bytes.lt := fun ks =>
    pairwise_dedupAdjacent KeyOrder.bytes_antisymm
      (List.pairwise_mergeSort KeyOrder.bytes.trans KeyOrder.bytes.total ks)
  have hnodup : ∀ ks : List String, (sortedDistinct ks).Nodup := fun ks => (hsorted ks).imp (fun h => h.2)
  refine List.Perm.eq_of_pairwise (fun a b _ _ hab hba => ?_) (hsorted keys) (hsorted keys') ?_
  · exact absurd (KeyOrder.bytes_antisymm a b hab.1 hba.1) hab.2
  · rw [List.perm_ext_iff_of_nodup (hnodup keys) (hnodup keys')]
    intro key
    rw [mem_sortedDistinct, mem_sortedDistinct, h]

end Lib
