import Mathlib
/-!
# Text

The character classes and string tests a program reads text with: Unicode white space, blank text, and the
fixed-length lower-case hexadecimal form of a 32-byte digest.
-/
namespace Lib

/-- Unicode `White_Space`, as `char::is_whitespace` reads it. -/
def isWhitespace (c : Char) : Bool :=
  let n := c.toNat
  (9 ≤ n && n ≤ 13) || n == 0x20 || n == 0x85 || n == 0xA0 || n == 0x1680 || (0x2000 ≤ n && n ≤ 0x200A) ||
    n == 0x2028 || n == 0x2029 || n == 0x202F || n == 0x205F || n == 0x3000

/-- Python's `str.isspace`: Unicode white space and the four ASCII separators. -/
def isPythonSpace (c : Char) : Bool := isWhitespace c || (0x1C ≤ c.toNat && c.toNat ≤ 0x1F)

/-- Python's `str.strip`. -/
def pythonStrip (s : String) : String :=
  String.ofList ((s.toList.dropWhile isPythonSpace).reverse.dropWhile isPythonSpace).reverse

/-- `str::trim` leaves nothing. -/
def isBlankText (s : String) : Bool := s.toList.all isWhitespace

def isLowerHexDigit (c : Char) : Bool := ('0' ≤ c && c ≤ '9') || ('a' ≤ c && c ≤ 'f')

/-- Sixty-four lower-case hexadecimal digits; they are one byte each, so characters and bytes count alike. -/
def isHexDigest (s : String) : Bool := s.toList.length == 64 && s.toList.all isLowerHexDigit

/-- The needle occurs somewhere in the text. -/
def containsText (needle hay : List Char) : Bool := hay.tails.any (fun t => needle.isPrefixOf t)

def byteLength (cs : List Char) : Nat := (cs.map Char.utf8Size).sum

theorem byteLength_append (cs ds : List Char) : byteLength (cs ++ ds) = byteLength cs + byteLength ds := by
  simp [byteLength]

theorem byteLength_cons (c : Char) (cs : List Char) : byteLength (c :: cs) = c.utf8Size + byteLength cs := by
  simp [byteLength]

theorem byteLength_le (cs : List Char) : byteLength cs ≤ 4 * cs.length := by
  induction cs with
  | nil => exact Nat.le_refl _
  | cons c cs ih =>
    have := Char.utf8Size_le_four c
    rw [byteLength_cons, List.length_cons]
    omega

theorem utf8ByteSize_ofList : ∀ cs : List Char, (String.ofList cs).utf8ByteSize = byteLength cs
  | [] => by simp [byteLength]
  | c :: cs => by
    have hcons : String.ofList (c :: cs) = String.singleton c ++ String.ofList cs := by
      rw [String.singleton_eq_ofList, ← String.ofList_append]; rfl
    rw [hcons, String.utf8ByteSize_append, String.utf8ByteSize_singleton, utf8ByteSize_ofList cs, byteLength_cons]

/-- `str::split` at a separator, left to right: the parts before, between and after its occurrences. -/
def splitText (sep : List Char) : Nat → List Char → List (List Char)
  | 0, cs => [cs]
  | fuel + 1, cs =>
    match (cs.tails.findIdx? (fun t => sep.isPrefixOf t)) with
    | none => [cs]
    | some i => cs.take i :: splitText sep fuel (cs.drop (i + sep.length))

/-- `str::split_once`: the text around the first occurrence of the separator. -/
def splitOnce (sep cs : List Char) : Option (List Char × List Char) :=
  (cs.tails.findIdx? (fun t => sep.isPrefixOf t)).map (fun i => (cs.take i, cs.drop (i + sep.length)))

theorem splitOnce_cons (c x : Char) (cs : List Char) : splitOnce [c] (x :: cs) =
    if c = x then some ([], cs) else (splitOnce [c] cs).map (fun q => (x :: q.1, q.2)) := by
  simp only [splitOnce, List.tails_cons, List.findIdx?_cons]
  by_cases h : c = x
  · simp [h, List.isPrefixOf]
  · simp [h, List.isPrefixOf, Option.map_map, Function.comp_def]

theorem splitOnce_eq_none {c : Char} : ∀ {cs : List Char}, splitOnce [c] cs = none ↔ c ∉ cs
  | [] => by simp [splitOnce, List.isPrefixOf]
  | x :: cs => by
    rw [splitOnce_cons]
    by_cases h : c = x
    · simp [h]
    · simp [h, @splitOnce_eq_none c cs]

theorem splitOnce_eq_some {c : Char} : ∀ {cs : List Char} {q : List Char × List Char}, splitOnce [c] cs = some q →
    cs = q.1 ++ c :: q.2
  | [], q, h => by simp [splitOnce, List.isPrefixOf] at h
  | x :: cs, q, h => by
    rw [splitOnce_cons] at h
    by_cases hx : c = x
    · rw [if_pos hx] at h
      rw [← Option.some.inj h, hx]
      rfl
    · rw [if_neg hx] at h
      obtain ⟨p, hp, rfl⟩ := Option.map_eq_some_iff.1 h
      rw [splitOnce_eq_some hp]
      rfl

def isAsciiAlphanumeric (c : Char) : Bool :=
  ('a' ≤ c && c ≤ 'z') || ('A' ≤ c && c ≤ 'Z') || ('0' ≤ c && c ≤ '9')

def asciiLower (c : Char) : Char := if 'A' ≤ c && c ≤ 'Z' then Char.ofNat (c.toNat + 32) else c

theorem notMem_of_mem_splitOn {α : Type} [DecidableEq α] {sep : α} :
    ∀ {text part : List α}, part ∈ text.splitOn sep → sep ∉ part
  | [], part, h => by
    rw [List.splitOn_nil, List.mem_singleton] at h
    simp [h]
  | x :: text, part, h => by
    rw [List.splitOn_cons_eq_if_modifyHead] at h
    obtain ⟨head, tail, hsplit⟩ := List.exists_cons_of_ne_nil (List.splitOn_ne_nil sep text)
    have hparts : ∀ p ∈ head :: tail, sep ∉ p := fun p hp => notMem_of_mem_splitOn (hsplit ▸ hp)
    rw [hsplit] at h
    split at h
    · rcases List.mem_cons.1 h with rfl | h
      · exact List.not_mem_nil
      · exact hparts part h
    · rename_i hx
      rcases List.mem_cons.1 h with rfl | h
      · have hne : sep ≠ x := fun e => hx (by simp [e])
        simp [hne, hparts head (List.mem_cons_self ..)]
      · exact hparts part (List.mem_cons_of_mem _ h)

end Lib
