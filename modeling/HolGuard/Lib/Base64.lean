import HolGuard.Lib.Bytes
/-!
# Base64 with the URL alphabet and no padding

Three bytes are four characters; one or two bytes at the end are two or three.  Decoding inverts encoding
(`decode_encode`).
-/
namespace Lib.Base64

def character (n : Nat) : Char :=
  if n < 26 then Char.ofNat (65 + n)
  else if n < 52 then Char.ofNat (71 + n)
  else if n < 62 then Char.ofNat (n - 4)
  else if n = 62 then '-'
  else '_'

def number (c : Char) : Option Nat :=
  if 'A' ≤ c ∧ c ≤ 'Z' then some (c.toNat - 65)
  else if 'a' ≤ c ∧ c ≤ 'z' then some (c.toNat - 97 + 26)
  else if '0' ≤ c ∧ c ≤ '9' then some (c.toNat - 48 + 52)
  else if c = '-' then some 62
  else if c = '_' then some 63
  else none

/-- Three bytes as one number, and its six-bit parts from the highest. -/
def block (a b c : Nat) : Nat := a * 65536 + b * 256 + c

def encode : Bytes → List Char
  | [] => []
  | [a] => [character (block a.toNat 0 0 / 262144 % 64), character (block a.toNat 0 0 / 4096 % 64)]
  | [a, b] =>
    [character (block a.toNat b.toNat 0 / 262144 % 64), character (block a.toNat b.toNat 0 / 4096 % 64),
      character (block a.toNat b.toNat 0 / 64 % 64)]
  | a :: b :: c :: r =>
    character (block a.toNat b.toNat c.toNat / 262144 % 64) :: character (block a.toNat b.toNat c.toNat / 4096 % 64) ::
      character (block a.toNat b.toNat c.toNat / 64 % 64) :: character (block a.toNat b.toNat c.toNat % 64) :: encode r

/-- The first byte of two six-bit numbers, and the bytes after it. -/
def firstByte (v w : Nat) : UInt8 := UInt8.ofNat (v * 4 + w / 16)

def secondByte (v w : Nat) : UInt8 := UInt8.ofNat (v % 16 * 16 + w / 4)

def thirdByte (v w : Nat) : UInt8 := UInt8.ofNat (v % 4 * 64 + w)

/-- Groups of four characters; the last may have two or three. -/
def decodeGroups : List Char → Option Bytes
  | [] => some []
  | [_] => none
  | [a, b] => do
    let v ← number a
    let w ← number b
    some [firstByte v w]
  | [a, b, c] => do
    let v ← number a
    let w ← number b
    let x ← number c
    some [firstByte v w, secondByte w x]
  | a :: b :: c :: d :: r => do
    let v ← number a
    let w ← number b
    let x ← number c
    let y ← number d
    let rest ← decodeGroups r
    some (firstByte v w :: secondByte w x :: thirdByte x y :: rest)

def decode (cs : List Char) : Option Bytes := if cs.isEmpty || cs.length % 4 == 1 then none else decodeGroups cs

theorem number_character : ∀ n, n < 64 → number (character n) = some n := by decide

def isAlphabet (c : Char) : Bool := isAsciiAlphanumeric c || c == '-' || c == '_'

theorem isAlphabet_character : ∀ n, n < 64 → isAlphabet (character n) = true := by decide

section

variable (a b c : UInt8)

theorem firstByte_block (m n : Nat) (hm : m < 256) (hn : n < 256) :
    firstByte (block a.toNat m n / 262144 % 64) (block a.toNat m n / 4096 % 64) = a := by
  have ha := a.toNat_lt
  rw [firstByte, ← UInt8.toNat_inj, UInt8.toNat_ofNat', block]
  omega

theorem secondByte_block (m n : Nat) (hn : n < 256) :
    secondByte (block m b.toNat n / 4096 % 64) (block m b.toNat n / 64 % 64) = b := by
  have hb := b.toNat_lt
  rw [secondByte, ← UInt8.toNat_inj, UInt8.toNat_ofNat', block]
  omega

theorem thirdByte_block (m n : Nat) : thirdByte (block m n c.toNat / 64 % 64) (block m n c.toNat % 64) = c := by
  have hc := c.toNat_lt
  rw [thirdByte, ← UInt8.toNat_inj, UInt8.toNat_ofNat', block]
  omega

end

theorem number_sextet (n : Nat) : number (character (n % 64)) = some (n % 64) :=
  number_character _ (Nat.mod_lt n (by decide))

theorem decodeGroups_encode : ∀ bytes : Bytes, decodeGroups (encode bytes) = some bytes
  | [] => rfl
  | [a] => by
    rw [encode, decodeGroups]
    simp only [number_sextet, Option.bind_eq_bind, Option.bind_some]
    rw [firstByte_block a 0 0 (by decide) (by decide)]
  | [a, b] => by
    rw [encode, decodeGroups]
    simp only [number_sextet, Option.bind_eq_bind, Option.bind_some]
    rw [firstByte_block a b.toNat 0 b.toNat_lt (by decide), secondByte_block b a.toNat 0 (by decide)]
  | a :: b :: c :: r => by
    rw [encode, decodeGroups]
    simp only [number_sextet, Option.bind_eq_bind, Option.bind_some, decodeGroups_encode r]
    rw [firstByte_block a b.toNat c.toNat b.toNat_lt c.toNat_lt, secondByte_block b a.toNat c.toNat c.toNat_lt,
      thirdByte_block c a.toNat b.toNat]

theorem length_encode : ∀ bytes : Bytes, (encode bytes).length = (bytes.length * 4 + 2) / 3
  | [] => rfl
  | [_] => by simp [encode]
  | [_, _] => by simp [encode]
  | _ :: _ :: _ :: r => by
    simp only [encode, List.length_cons, length_encode r]
    omega

/-- **Decoding inverts encoding**, of anything but nothing. -/
theorem decode_encode {bytes : Bytes} (h : bytes ≠ []) : decode (encode bytes) = some bytes := by
  have hpos := List.length_pos_iff.2 h
  have hlen := length_encode bytes
  have hne : (encode bytes).isEmpty = false := by
    rw [List.isEmpty_eq_false_iff, ← List.length_pos_iff]
    omega
  have hmod : ((encode bytes).length % 4 == 1) = false := by
    rw [beq_eq_false_iff_ne]
    omega
  rw [decode, hne, hmod]
  exact decodeGroups_encode bytes

theorem isAlphabet_of_mem_encode (bytes : Bytes) (c : Char) (h : c ∈ encode bytes) : isAlphabet c = true := by
  have hsextet : ∀ n, isAlphabet (character (n % 64)) = true := fun n =>
    isAlphabet_character _ (Nat.mod_lt _ (by decide))
  fun_induction encode bytes with
  | case1 => cases h
  | case2 | case3 =>
    simp only [List.mem_cons, List.not_mem_nil, or_false] at h
    rcases h with rfl | rfl | rfl <;> exact hsextet _
  | case4 a b d r ih =>
    simp only [List.mem_cons] at h
    rcases h with rfl | rfl | rfl | rfl | h
    iterate 4 exact hsextet _
    exact ih h

end Lib.Base64
