import HolGuard.Lib.Text
/-!
# Bytes, hexadecimal text and a hash

The bytes of a text, the hexadecimal text of bytes, and a hash of 32 bytes with the keyed construction over it.  The
hash itself is a parameter that carries its digest length; nothing else is assumed of it here.
-/
namespace Lib

abbrev Bytes := List UInt8

def utf8 (s : String) : Bytes := s.toByteArray.data.toList

theorem utf8_injective {s t : String} (h : utf8 s = utf8 t) : s = t := by
  rw [← String.toByteArray_inj]
  exact ByteArray.ext (Array.toList_inj.1 h)

def hexDigit (n : Nat) : Char := if n < 10 then Char.ofNat (48 + n) else Char.ofNat (87 + n)

/-- `hex::encode` -/
def hexEncode (bytes : Bytes) : String :=
  String.ofList (bytes.flatMap (fun b => [hexDigit (b.toNat / 16), hexDigit (b.toNat % 16)]))

theorem isLowerHexDigit_hexDigit : ∀ n, n < 16 → isLowerHexDigit (hexDigit n) = true := by decide

theorem isHexDigest_hexEncode {bytes : Bytes} (h : bytes.length = 32) : isHexDigest (hexEncode bytes) = true := by
  have hlen : ∀ l : Bytes, (l.flatMap (fun b => [hexDigit (b.toNat / 16), hexDigit (b.toNat % 16)])).length =
      2 * l.length := by
    intro l
    induction l with
    | nil => rfl
    | cons b l ih => rw [List.flatMap_cons, List.length_append, ih, List.length_cons]; simp; omega
  unfold isHexDigest hexEncode
  rw [String.toList_ofList, hlen, h, Bool.and_eq_true, List.all_eq_true]
  refine ⟨rfl, fun c hc => ?_⟩
  obtain ⟨b, -, hb⟩ := List.mem_flatMap.1 hc
  have hlt : b.toNat < 256 := b.toNat_lt
  simp only [List.mem_cons, List.not_mem_nil, or_false] at hb
  rcases hb with rfl | rfl <;> exact isLowerHexDigit_hexDigit _ (by omega)

theorem hexEncode_injective {a b : Bytes} (h : hexEncode a = hexEncode b) : a = b := by
  have hdigit : ∀ m < 16, ∀ n < 16, hexDigit m = hexDigit n → m = n := by decide
  have hpair : ∀ x y : UInt8, hexDigit (x.toNat / 16) = hexDigit (y.toNat / 16) →
      hexDigit (x.toNat % 16) = hexDigit (y.toNat % 16) → x = y := by
    intro x y h1 h2
    have hx : x.toNat < 256 := x.toNat_lt
    have hy : y.toNat < 256 := y.toNat_lt
    have hhigh := hdigit _ (by omega) _ (by omega) h1
    have hlow := hdigit _ (by omega) _ (by omega) h2
    exact UInt8.toNat_inj.1 (by omega)
  replace h := congrArg String.toList h
  simp only [hexEncode, String.toList_ofList] at h
  induction a generalizing b with
  | nil => cases b with
    | nil => rfl
    | cons y b => cases h
  | cons x a ih => cases b with
    | nil => cases h
    | cons y b =>
      simp only [List.flatMap_cons, List.cons_append, List.nil_append, List.cons.injEq] at h
      obtain ⟨h1, h2, h3⟩ := h
      rw [hpair x y h1 h2, ih h3]

/-- A value of 64 bits, most significant byte first. -/
def beBytes (n : Nat) : Bytes := (List.range 8).map (fun i => UInt8.ofNat (n / 256 ^ (7 - i)))

/-- A hash function with digests of 32 bytes. -/
structure Hash where
  digest : Bytes → Bytes
  length_digest : ∀ bytes, (digest bytes).length = 32

namespace Hash

/-- The hash whose digests are all zero, for concrete runs. -/
def zero : Hash := ⟨fun _ => List.replicate 32 0, fun _ => List.length_replicate⟩

variable (sha : Hash)

def hex (bytes : Bytes) : String := hexEncode (sha.digest bytes)

theorem isHexDigest_hex (bytes : Bytes) : isHexDigest (sha.hex bytes) = true :=
  isHexDigest_hexEncode (sha.length_digest bytes)

def blockBytes : Nat := 64

/-- The key, or its digest when it is longer than a block, filled up with zeros. -/
def keyBlock (key : Bytes) : Bytes :=
  let key := if key.length > blockBytes then sha.digest key else key
  key ++ List.replicate (blockBytes - key.length) 0

/-- HMAC over a label and a message. -/
def hmac (key label message : Bytes) : Bytes :=
  let inner := sha.digest ((sha.keyBlock key).map (0x36 ^^^ ·) ++ label ++ message)
  sha.digest ((sha.keyBlock key).map (0x5c ^^^ ·) ++ inner)

def hmacHex (key label message : Bytes) : String := hexEncode (sha.hmac key label message)

theorem isHexDigest_hmacHex (key label message : Bytes) : isHexDigest (sha.hmacHex key label message) = true :=
  isHexDigest_hexEncode (sha.length_digest _)

/-- The two inputs do not collide. -/
def Separates (a b : Bytes) : Prop := sha.digest a = sha.digest b → a = b

theorem Separates.eq_of_hex {sha : Hash} {a b : Bytes} (h : sha.Separates a b) (hab : sha.hex a = sha.hex b) : a = b :=
  h (hexEncode_injective hab)

end Hash
end Lib
