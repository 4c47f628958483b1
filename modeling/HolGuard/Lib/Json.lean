import HolGuard.Lib.JsonText
/-!
# JSON values and their canonical text

A JSON value whose numbers are natural and whose objects list their members in key order, as a sorted map holds them.
Its compact text reads back (`parse_text`), so the text determines the value (`text_injective`).
-/
namespace Lib

open JsonReader

abbrev Json := JsonTree String Nat

namespace Json

def write (v : Json) : List Char := JsonTree.write writeString (Nat.toDigits 10) v

def text (v : Json) : String := String.ofList v.write

/-- The natural number a token spells. -/
def natural : NumberToken → Option Nat
  | .numeral ⟨false, digits, none, none⟩ => some (Nat.ofDigitChars 10 digits 0)
  | _ => none

/-- The value a text spells. -/
def parse (s : String) : Option Json := (readDocument s.toList).bind (JsonTree.read scalarString natural)

theorem intText_natCast (n : Nat) : intText (n : Int) = Nat.toDigits 10 n := by
  rw [intText, if_neg (by omega), Int.natAbs_natCast]

theorem natural_intToken (n : Nat) : natural (intToken n) = some n := by
  have hsign : decide ((n : Int) < 0) = false := decide_eq_false (by omega)
  rw [intToken, hsign, natural, Int.natAbs_natCast, Nat.ofDigitChars_ten_toDigits]

theorem legible_text : Legible writeString (Nat.toDigits 10) codePoints (fun n : Nat => intToken n) where
  str_scan := scanString_writeString
  num_head n := by
    rw [← intText_natCast]
    exact intText_head n
  num_read n r hr := by
    rw [← intText_natCast]
    exact readNumber_intText n hr

/-- **The canonical text reads back as the value.** -/
theorem parse_text (v : Json) : parse v.text = some v := by
  rw [parse, text, String.toList_ofList, write, readDocument_write legible_text, Option.bind_some]
  exact JsonTree.read_map scalarString_codePoints natural_intToken v

theorem text_injective {v w : Json} (h : v.text = w.text) : v = w := by
  have hread := congrArg parse h
  rw [parse_text, parse_text] at hread
  exact Option.some.inj hread

end Json
end Lib
