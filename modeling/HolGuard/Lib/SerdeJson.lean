import HolGuard.Lib.JsonText
/-!
# JSON values of a native runtime

Strings are Unicode, integers keep their value between `-2^63` and `2^64`, every other number is a binary64 float, and
an object is a map ordered by the bytes of its keys.  Binary64 itself, its conversion from decimal text and its texts
are not described here: they are the fields of `Binary64`.
-/
namespace Lib

open JsonReader

/-- Binary64 as two runtimes read and print it. -/
structure Binary64 where
  F : Type
  /-- The float a native reader makes of a numeral, unless the numeral is out of range. -/
  native : Numeral → Option F
  /-- The float Python makes of a numeral. -/
  python : Numeral → F
  nan : F
  infinity : F
  negInfinity : F
  isFinite : F → Bool
  negative : F → Bool
  /-- The shortest digits that read back as the absolute value. -/
  digits : F → List Char
  /-- The power of ten of the first digit. -/
  exponent : F → Int
  /-- The native text of a number. -/
  display : F → List Char
  /-- Python's text of a number. -/
  repr : F → List Char
  isOne : F → Bool

/-- What shortest digits look like, and which numerals a native reader cannot refuse. -/
structure Binary64.Lawful (B : Binary64) : Prop where
  digits : ∀ f, IntegerDigits (B.digits f)
  exponent_zero : ∀ f, (B.digits f).head? = some '0' → B.exponent f = 0
  native_finite : ∀ n f, B.native n = some f → B.isFinite f = true
  native_integer : ∀ n, n.fraction = none → n.exponent = none → n.digits.length ≤ 308 → (B.native n).isSome = true

/-- Floats that keep integers and forget fractions and exponents: enough to evaluate what does not look at them. -/
def Binary64.integral : Binary64 where
  F := Option (Bool × Nat)
  native n := some (some (n.negative, Nat.ofDigitChars 10 n.digits 0))
  python n := some (n.negative, Nat.ofDigitChars 10 n.digits 0)
  nan := none
  infinity := none
  negInfinity := none
  isFinite := Option.isSome
  negative := fun f => f.any Prod.fst
  digits := fun f => Nat.toDigits 10 (f.elim 0 Prod.snd)
  exponent := fun f => (Nat.toDigits 10 (f.elim 0 Prod.snd)).length - 1
  display := fun f => Nat.toDigits 10 (f.elim 0 Prod.snd)
  repr := fun f => Nat.toDigits 10 (f.elim 0 Prod.snd)
  isOne := fun f => f == some (false, 1)

theorem Binary64.lawful_integral : Binary64.integral.Lawful where
  digits f := integerDigits_toDigits (f.elim 0 Prod.snd)
  exponent_zero f h := by
    have hzero : f.elim 0 Prod.snd = 0 := by
      by_contra hne
      exact toDigits_head_ne_zero (Nat.pos_of_ne_zero hne) h
    simp only [Binary64.integral, hzero]
    rfl
  native_finite n f h := by
    cases h
    rfl
  native_integer _ _ _ _ := rfl

/-- What native integers hold. -/
def FitsNative (i : Int) : Prop := -9223372036854775808 ≤ i ∧ i < 18446744073709551616

instance (i : Int) : Decidable (FitsNative i) := inferInstanceAs (Decidable (_ ∧ _))

structure NativeInt where
  val : Int
  fits : FitsNative val

theorem NativeInt.ext {i j : NativeInt} (h : i.val = j.val) : i = j := by
  cases i; cases j; cases h; rfl

inductive Number (F : Type) where
  | int (i : NativeInt)
  | float (f : F)

abbrev NativeValue (F : Type) := JsonTree String (Number F)

/-- A numeral that is spelled as a native integer: no fraction, no exponent, in range, and not `-0`. -/
def Numeral.SpellsNative (n : Numeral) : Prop :=
  n.fraction = none ∧ n.exponent = none ∧ FitsNative n.integer ∧ ¬(n.negative = true ∧ n.integer = 0)

instance (n : Numeral) : Decidable n.SpellsNative := inferInstanceAs (Decidable (_ ∧ _ ∧ _ ∧ _))

/-- Integers stay integers as far as 64 bits reach; any other numeral becomes a float, and so does `-0`. -/
def nativeNumber (B : Binary64) : NumberToken → Option (Number B.F)
  | .numeral n => if h : n.SpellsNative then some (.int ⟨n.integer, h.2.2.1⟩) else (B.native n).map .float
  | .nan => none
  | .infinity => none
  | .negInfinity => none

theorem spellsNative_intToken (i : NativeInt) :
    Numeral.SpellsNative ⟨decide (i.val < 0), Nat.toDigits 10 i.val.natAbs, none, none⟩ := by
  refine ⟨rfl, rfl, ?_, ?_⟩
  · rw [integer_intToken]
    exact i.fits
  · rw [integer_intToken, decide_eq_true_eq]
    omega

theorem nativeNumber_intToken (B : Binary64) (i : NativeInt) : nativeNumber B (intToken i.val) = some (.int i) := by
  rw [intToken, nativeNumber, dif_pos (spellsNative_intToken i)]
  exact congrArg (fun j => some (Number.int j)) (NativeInt.ext (integer_intToken i.val))

/-! ## Reading a text into a value -/

section

variable (B : Binary64)

/-- Containers inside containers a reader goes into. -/
def maxNesting : Nat := 127

mutual

/-- A value inside some containers; a key named twice keeps its last value. -/
def serdeValue (nested : Nat) : RawTree → Option (NativeValue B.F)
  | .null => some .null
  | .bool b => some (.bool b)
  | .num t => (nativeNumber B t).map .num
  | .str codes => (scalarString codes).map .str
  | .arr items => if maxNesting ≤ nested then none else (serdeItems (nested + 1) items).map .arr
  | .obj members =>
    if maxNesting ≤ nested then none
    else (serdeMembers (nested + 1) members).map (fun ms => .obj ((dictOf ms).mergeSort KeyOrder.bytes.members))

def serdeItems (nested : Nat) : List RawTree → Option (List (NativeValue B.F))
  | [] => some []
  | v :: vs => (serdeValue nested v).bind (fun w => (serdeItems nested vs).map (w :: ·))

def serdeMembers (nested : Nat) : List (List Nat × RawTree) → Option (List (String × NativeValue B.F))
  | [] => some []
  | (codes, v) :: ms => (scalarString codes).bind (fun key =>
      (serdeValue nested v).bind (fun w => (serdeMembers nested ms).map ((key, w) :: ·)))

end

def fromStr (text : String) : Option (NativeValue B.F) := (readDocument text.toList).bind (serdeValue B 0)

end

end Lib
