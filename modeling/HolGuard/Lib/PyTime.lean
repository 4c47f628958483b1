import Mathlib
/-!
# Datetimes

A Python `datetime` is a wall clock and, when it is aware, the offset of that clock from UTC, both in microseconds; the
instant of an aware one is their difference.  `fromisoformat` reads the texts that every Python from 3.7 on reads alike:
`YYYY-MM-DD[*HH[:MM[:SS[.fff[fff]]]][+HH:MM[:SS[.ffffff]]]]`.
-/
namespace Lib

structure DateTime where
  /-- microseconds of the wall clock since 1970-01-01 00:00:00 -/
  wall : Int
  utcoffset : Option Int
deriving DecidableEq

namespace DateTime

/-- The wall clock of 9999-12-31T23:59:59.999999. -/
def largest : Int := 253402300799999999

/-- The instant of an aware datetime. -/
def instant? (d : DateTime) : Option Int := d.utcoffset.map (d.wall - ·)

/-- The instant of a datetime whose wall clock is UTC when it is naive. -/
def utcInstant (d : DateTime) : Int := d.wall - d.utcoffset.getD 0

/-! ## Reading -/

def digits : Nat → List Char → Option (Nat × List Char)
  | 0, cs => some (0, cs)
  | n + 1, cs =>
    match cs with
    | [] => none
    | c :: cs =>
      if c.isDigit then (digits n cs).map (fun q => ((c.toNat - 48) * 10 ^ n + q.1, q.2)) else none

def isLeap (y : Nat) : Bool := y % 4 == 0 && (y % 100 != 0 || y % 400 == 0)

def daysInMonth (y m : Nat) : Nat :=
  if m = 2 then (if isLeap y then 29 else 28) else if m = 4 ∨ m = 6 ∨ m = 9 ∨ m = 11 then 30 else 31

def daysOf (y m d : Nat) : Int :=
  let before := y - 1
  let yearDays : Int := 365 * before + before / 4 - before / 100 + before / 400
  let monthDays := ((List.range (m - 1)).map (fun i => daysInMonth y (i + 1))).sum
  yearDays + monthDays + d - 719163

/-- `YYYY-MM-DD`. -/
def readDate (cs : List Char) : Option (Int × List Char) := do
  let (y, cs) ← digits 4 cs
  let '-' :: cs := cs | none
  let (m, cs) ← digits 2 cs
  let '-' :: cs := cs | none
  let (d, cs) ← digits 2 cs
  if 1 ≤ y ∧ 1 ≤ m ∧ m ≤ 12 ∧ 1 ≤ d ∧ d ≤ daysInMonth y m then some (daysOf y m d * 86400000000, cs) else none

/-- The fraction of a second: three or six digits. -/
def readFraction (cs : List Char) : Option (Nat × List Char) :=
  match digits 6 cs with
  | some q => some q
  | none => (digits 3 cs).map (fun q => (q.1 * 1000, q.2))

/-- `HH[:MM[:SS[.fff[fff]]]]`, in microseconds. -/
def readClock (cs : List Char) : Option (Int × List Char) := do
  let (h, cs) ← digits 2 cs
  if 23 < h then none
  else
    match cs with
    | ':' :: cs =>
      let (m, cs) ← digits 2 cs
      if 59 < m then none
      else
        match cs with
        | ':' :: cs =>
          let (s, cs) ← digits 2 cs
          if 59 < s then none
          else
            match cs with
            | '.' :: cs =>
              let (f, cs) ← readFraction cs
              some (((h * 60 + m) * 60 + s) * 1000000 + f, cs)
            | cs => some (((h * 60 + m) * 60 + s) * 1000000, cs)
        | cs => some ((h * 60 + m) * 60 * 1000000, cs)
    | cs => some (h * 3600 * 1000000, cs)

/-- `+HH:MM[:SS[.ffffff]]` to the end of the text. -/
def readOffset (cs : List Char) : Option (Option Int) :=
  match cs with
  | [] => some none
  | sign :: cs =>
    if sign = '+' ∨ sign = '-' then
      match readClock cs with
      | some (t, []) => if cs.length < 5 then none else some (some (if sign = '-' then -t else t))
      | _ => none
    else none

/-- `datetime.fromisoformat`. -/
def fromisoformat (text : String) : Option DateTime := do
  let (day, cs) ← readDate text.toList
  match cs with
  | [] => some ⟨day, none⟩
  | _ :: cs =>
    let (clock, cs) ← readClock cs
    let offset ← readOffset cs
    some ⟨day + clock, offset⟩

example : fromisoformat "1970-01-02T00:00:01.500+01:00" = some ⟨86401500000, some 3600000000⟩ := by decide +kernel

end DateTime
end Lib
