import HolGuard.Lib.JsonTree
/-!
# Reading JSON text

The grammar of RFC 8259 as JSON readers implement it: a text is read into a tree that keeps strings as code points, with
the surrogates of escapes joined where they pair up, and numbers as they are spelled.  What a runtime makes of lone
surrogates, of repeated keys and of the spelling of a number is for the runtime to say; so are the three constants some
readers accept besides the grammar.  `readValue_write` is the round trip for every writer whose strings and numbers can
be read back.
-/
namespace Lib

open Lib.JsonTree (writeItems writeMembers)

/-- A number as spelled: sign, integer digits, digits of the fraction, and the exponent after its letter. -/
structure Numeral where
  negative : Bool
  digits : List Char
  fraction : Option (List Char)
  exponent : Option (List Char)
  deriving DecidableEq

inductive NumberToken where
  | numeral (n : Numeral)
  | nan
  | infinity
  | negInfinity
  deriving DecidableEq

abbrev RawTree := JsonTree (List Nat) NumberToken

namespace JsonReader

def isBlank (c : Char) : Bool := c == ' ' || c == '\t' || c == '\n' || c == '\r'

def skipBlank (cs : List Char) : List Char := cs.dropWhile isBlank

/-! ## Strings -/

def hexCode (c : Char) : Option Nat :=
  if '0' ≤ c ∧ c ≤ '9' then some (c.toNat - 48)
  else if 'a' ≤ c ∧ c ≤ 'f' then some (c.toNat - 87)
  else if 'A' ≤ c ∧ c ≤ 'F' then some (c.toNat - 55)
  else none

def hexUnit (a b c d : Char) : Option Nat := do
  let a ← hexCode a
  let b ← hexCode b
  let c ← hexCode c
  let d ← hexCode d
  some (((a * 16 + b) * 16 + c) * 16 + d)

/-- The character a short escape stands for. -/
def escapeUnit (c : Char) : Option Nat :=
  if c = '"' then some 34
  else if c = '\\' then some 92
  else if c = '/' then some 47
  else if c = 'b' then some 8
  else if c = 'f' then some 12
  else if c = 'n' then some 10
  else if c = 'r' then some 13
  else if c = 't' then some 9
  else none

/-- The rest of a string after its opening quote: code points of plain characters, units of escapes. -/
def scanUnits : List Char → Option (List Nat × List Char)
  | '"' :: r => some ([], r)
  | '\\' :: 'u' :: a :: b :: c :: d :: r =>
    (hexUnit a b c d).bind (fun u => (scanUnits r).map (fun q => (u :: q.1, q.2)))
  | '\\' :: e :: r => (escapeUnit e).bind (fun u => (scanUnits r).map (fun q => (u :: q.1, q.2)))
  | c :: r => if c = '\\' ∨ c.toNat < 32 then none else (scanUnits r).map (fun q => (c.toNat :: q.1, q.2))
  | [] => none

def isHighSurrogate (u : Nat) : Bool := 0xd800 ≤ u && u ≤ 0xdbff

def isLowSurrogate (u : Nat) : Bool := 0xdc00 ≤ u && u ≤ 0xdfff

/-- Only escapes yield surrogates, so neighbours here are neighbours in the text. -/
def joinSurrogates : List Nat → List Nat
  | [] => []
  | [u] => [u]
  | u :: w :: r =>
    if isHighSurrogate u && isLowSurrogate w then
      (0x10000 + (u - 0xd800) * 0x400 + (w - 0xdc00)) :: joinSurrogates r
    else u :: joinSurrogates (w :: r)

def scanString (cs : List Char) : Option (List Nat × List Char) :=
  (scanUnits cs).map (fun q => (joinSurrogates q.1, q.2))

/-! ## Numbers -/

def readFraction : List Char → Option (Option (List Char) × List Char)
  | '.' :: r =>
    if (r.takeWhile Char.isDigit).isEmpty then none
    else some (some (r.takeWhile Char.isDigit), r.dropWhile Char.isDigit)
  | r => some (none, r)

def splitSign : List Char → List Char × List Char
  | '+' :: r => (['+'], r)
  | '-' :: r => (['-'], r)
  | r => ([], r)

def readExponent : List Char → Option (Option (List Char) × List Char)
  | c :: r =>
    if c = 'e' ∨ c = 'E' then
      let q := splitSign r
      if (q.2.takeWhile Char.isDigit).isEmpty then none
      else some (some (q.1 ++ q.2.takeWhile Char.isDigit), q.2.dropWhile Char.isDigit)
    else some (none, c :: r)
  | [] => some (none, [])

/-- No digit may follow a leading zero. -/
def readUnsigned (negative : Bool) (cs : List Char) : Option (Numeral × List Char) :=
  let digits := cs.takeWhile Char.isDigit
  if digits.isEmpty || (1 < digits.length && digits.head? == some '0') then none
  else (readFraction (cs.dropWhile Char.isDigit)).bind (fun f =>
    (readExponent f.2).map (fun e => (⟨negative, digits, f.1, e.1⟩, e.2)))

def readNumber (cs : List Char) : Option (NumberToken × List Char) :=
  match cs with
  | 'N' :: 'a' :: 'N' :: r => some (.nan, r)
  | 'I' :: 'n' :: 'f' :: 'i' :: 'n' :: 'i' :: 't' :: 'y' :: r => some (.infinity, r)
  | '-' :: 'I' :: 'n' :: 'f' :: 'i' :: 'n' :: 'i' :: 't' :: 'y' :: r => some (.negInfinity, r)
  | '-' :: r => (readUnsigned true r).map (fun q => (.numeral q.1, q.2))
  | r => (readUnsigned false r).map (fun q => (.numeral q.1, q.2))

/-! ## Values -/

mutual

def readValue : Nat → List Char → Option (RawTree × List Char)
  | 0, _ => none
  | fuel + 1, cs =>
    match cs with
    | '"' :: r => (scanString r).map (fun q => (.str q.1, q.2))
    | '[' :: r => match skipBlank r with
      | ']' :: r => some (.arr [], r)
      | r => (readValue fuel r).bind (fun q =>
          (readItems fuel (skipBlank q.2)).map (fun t => (.arr (q.1 :: t.1), t.2)))
    | '{' :: r => match skipBlank r with
      | '}' :: r => some (.obj [], r)
      | r => (readMember fuel r).bind (fun q =>
          (readMembers fuel (skipBlank q.2)).map (fun t => (.obj (q.1 :: t.1), t.2)))
    | 'n' :: 'u' :: 'l' :: 'l' :: r => some (.null, r)
    | 't' :: 'r' :: 'u' :: 'e' :: r => some (.bool true, r)
    | 'f' :: 'a' :: 'l' :: 's' :: 'e' :: r => some (.bool false, r)
    | r => (readNumber r).map (fun q => (.num q.1, q.2))

/-- The items after one, and the closing bracket. -/
def readItems : Nat → List Char → Option (List RawTree × List Char)
  | 0, _ => none
  | fuel + 1, cs =>
    match cs with
    | ']' :: r => some ([], r)
    | ',' :: r => (readValue fuel (skipBlank r)).bind (fun q =>
        (readItems fuel (skipBlank q.2)).map (fun t => (q.1 :: t.1, t.2)))
    | _ => none

def readMember : Nat → List Char → Option ((List Nat × RawTree) × List Char)
  | 0, _ => none
  | fuel + 1, cs =>
    match cs with
    | '"' :: r => (scanString r).bind (fun k =>
        match skipBlank k.2 with
        | ':' :: r => (readValue fuel (skipBlank r)).map (fun q => ((k.1, q.1), q.2))
        | _ => none)
    | _ => none

/-- The members after one, and the closing brace. -/
def readMembers : Nat → List Char → Option (List (List Nat × RawTree) × List Char)
  | 0, _ => none
  | fuel + 1, cs =>
    match cs with
    | '}' :: r => some ([], r)
    | ',' :: r => (readMember fuel (skipBlank r)).bind (fun q =>
        (readMembers fuel (skipBlank q.2)).map (fun t => (q.1 :: t.1, t.2)))
    | _ => none

end

def readText (cs : List Char) : Option (RawTree × List Char) := readValue (cs.length + 1) (skipBlank cs)

def readDocument (cs : List Char) : Option RawTree :=
  (readText cs).bind (fun q => if skipBlank q.2 = [] then some q.1 else none)

/-! ## The round trip -/

/-- Nothing that continues a number. -/
def EndsNumber (r : List Char) : Prop := ∀ c ∈ r.head?, c.isDigit = false ∧ c ≠ '.' ∧ c ≠ 'e' ∧ c ≠ 'E'

theorem endsNumber_nil : EndsNumber [] := fun _ h => by cases h

theorem endsNumber_cons {c : Char} {r : List Char} (h : c.isDigit = false ∧ c ≠ '.' ∧ c ≠ 'e' ∧ c ≠ 'E') :
    EndsNumber (c :: r) := by
  intro d hd
  cases hd
  exact h

/-- A writer of strings and numbers whose texts the reader takes back. -/
structure Legible {S N : Type} (str : S → List Char) (num : N → List Char) (codes : S → List Nat)
    (token : N → NumberToken) : Prop where
  str_scan : ∀ s r, ∃ t, str s ++ r = '"' :: t ∧ scanString t = some (codes s, r)
  num_head : ∀ n, ∃ c t, num n = c :: t ∧ (c = '-' ∨ c.isDigit = true)
  num_read : ∀ n r, EndsNumber r → readNumber (num n ++ r) = some (token n, r)

theorem skipBlank_cons {c : Char} (h : isBlank c = false) (r : List Char) : skipBlank (c :: r) = c :: r := by
  unfold skipBlank
  rw [List.dropWhile_cons, h]
  rfl

theorem readValue_number (fuel : Nat) {c : Char} (hc : c = '-' ∨ c.isDigit = true) (r : List Char) :
    readValue (fuel + 1) (c :: r) = (readNumber (c :: r)).map (fun q => (.num q.1, q.2)) := by
  rw [readValue.eq_def]
  simp only
  split
  all_goals first
    | rfl
    | (rename_i heq
       obtain ⟨rfl, -⟩ := List.cons.inj heq
       exact absurd hc (by decide))

theorem readValue_arr (fuel : Nat) {c : Char} (hb : isBlank c = false) (hc : c ≠ ']') (r : List Char) :
    readValue (fuel + 1) ('[' :: c :: r) =
      (readValue fuel (c :: r)).bind (fun q =>
        (readItems fuel (skipBlank q.2)).map (fun t => (.arr (q.1 :: t.1), t.2))) := by
  rw [readValue.eq_def]
  simp only [skipBlank_cons hb]
  split
  · rename_i heq
    exact absurd (List.cons.inj heq).1 hc
  · rfl

theorem readValue_obj (fuel : Nat) (r : List Char) :
    readValue (fuel + 1) ('{' :: '"' :: r) =
      (readMember fuel ('"' :: r)).bind (fun q =>
        (readMembers fuel (skipBlank q.2)).map (fun t => (.obj (q.1 :: t.1), t.2))) := rfl

section Write

variable {S N : Type} {str : S → List Char} {num : N → List Char} {codes : S → List Nat} {token : N → NumberToken}

theorem write_head (hl : Legible str num codes token) (v : JsonTree S N) :
    ∃ c t, v.write str num = c :: t ∧ isBlank c = false ∧ c ≠ ']' := by
  cases v with
  | null => exact ⟨_, _, rfl, by decide, by decide⟩
  | bool b => cases b <;> exact ⟨_, _, rfl, by decide, by decide⟩
  | num n =>
    obtain ⟨c, t, h, hc⟩ := hl.num_head n
    refine ⟨c, t, h, ?_, ?_⟩
    · rcases hc with rfl | hd
      · decide
      · unfold isBlank
        simp only [Bool.or_eq_false_iff, beq_eq_false_iff_ne]
        refine ⟨⟨⟨?_, ?_⟩, ?_⟩, ?_⟩ <;> (rintro rfl; exact absurd hd (by decide))
    · rintro rfl
      exact absurd hc (by decide)
  | str s =>
    obtain ⟨t, ht, -⟩ := hl.str_scan s []
    exact ⟨_, t, by rw [JsonTree.write, ← ht, List.append_nil], by decide, by decide⟩
  | arr items => cases items <;> exact ⟨_, _, by rw [JsonTree.write], by decide, by decide⟩
  | obj members => obtain _ | ⟨⟨k, v⟩, ms⟩ := members <;> exact ⟨_, _, by rw [JsonTree.write], by decide, by decide⟩

theorem endsNumber_writeItems (vs : List (JsonTree S N)) (r : List Char) :
    EndsNumber (writeItems str num vs ++ r) := by
  cases vs <;> exact endsNumber_cons (by decide)

theorem endsNumber_writeMembers (ms : List (S × JsonTree S N)) (r : List Char) :
    EndsNumber (writeMembers str num ms ++ r) := by
  obtain _ | ⟨⟨k, v⟩, ms⟩ := ms <;> exact endsNumber_cons (by decide)

theorem skipBlank_writeItems (vs : List (JsonTree S N)) (r : List Char) :
    skipBlank (writeItems str num vs ++ r) = writeItems str num vs ++ r := by
  cases vs <;> exact skipBlank_cons (by decide) _

theorem skipBlank_writeMembers (ms : List (S × JsonTree S N)) (r : List Char) :
    skipBlank (writeMembers str num ms ++ r) = writeMembers str num ms ++ r := by
  obtain _ | ⟨⟨k, v⟩, ms⟩ := ms <;> exact skipBlank_cons (by decide) _

theorem skipBlank_write (hl : Legible str num codes token) (v : JsonTree S N) (r : List Char) :
    skipBlank (v.write str num ++ r) = v.write str num ++ r := by
  obtain ⟨c, t, h, hb, -⟩ := write_head hl v
  rw [h, List.cons_append, skipBlank_cons hb]

theorem readMember_write (hl : Legible str num codes token) (k : S) (v : JsonTree S N) {fuel : Nat} {r : List Char}
    (hv : readValue fuel (v.write str num ++ r) = some (v.map codes token, r)) :
    readMember (fuel + 1) (str k ++ ':' :: (v.write str num ++ r)) = some ((codes k, v.map codes token), r) := by
  obtain ⟨t, ht, hscan⟩ := hl.str_scan k (':' :: (v.write str num ++ r))
  have hcolon : skipBlank (':' :: (v.write str num ++ r)) = ':' :: (v.write str num ++ r) :=
    skipBlank_cons (by decide) _
  rw [ht, readMember.eq_def]
  simp only [hscan, Option.bind_some, hcolon, skipBlank_write hl, hv, Option.map_some]

mutual

/-- **What a legible writer wrote reads back as the tree it wrote**, with fuel for every character of the text. -/
theorem readValue_write (hl : Legible str num codes token) : ∀ (v : JsonTree S N) (fuel : Nat) (r : List Char),
    (v.write str num).length ≤ fuel → EndsNumber r →
    readValue (fuel + 1) (v.write str num ++ r) = some (v.map codes token, r)
  | .null, _, _, _, _ => rfl
  | .bool true, _, _, _, _ => rfl
  | .bool false, _, _, _, _ => rfl
  | .num n, fuel, r, _, hr => by
    obtain ⟨c, t, h, hc⟩ := hl.num_head n
    have hread := hl.num_read n r hr
    simp only [JsonTree.write, JsonTree.map]
    rw [h, List.cons_append] at hread ⊢
    rw [readValue_number fuel hc, hread]
    rfl
  | .str s, fuel, r, _, _ => by
    obtain ⟨t, ht, hscan⟩ := hl.str_scan s r
    simp only [JsonTree.write, JsonTree.map]
    rw [ht, readValue.eq_def]
    simp only [hscan, Option.map_some]
  | .arr [], _, _, _, _ => rfl
  | .arr (v :: vs), fuel, r, hf, _ => by
    simp only [JsonTree.write, List.length_cons, List.length_append] at hf
    obtain ⟨c, t, hw, hb, hc⟩ := write_head hl v
    obtain ⟨fuel, rfl⟩ : ∃ f, fuel = f + 1 := ⟨fuel - 1, by omega⟩
    have hv := readValue_write hl v fuel (writeItems str num vs ++ r) (by omega) (endsNumber_writeItems vs r)
    have hs := readItems_write hl vs fuel r (by omega)
    simp only [JsonTree.write, List.cons_append, List.append_assoc]
    rw [hw, List.cons_append, readValue_arr _ hb hc, ← List.cons_append, ← hw, hv, Option.bind_some,
      skipBlank_writeItems, hs]
    rfl
  | .obj [], _, _, _, _ => rfl
  | .obj ((k, v) :: ms), fuel, r, hf, _ => by
    simp only [JsonTree.write, List.length_cons, List.length_append] at hf
    obtain ⟨fuel, rfl⟩ : ∃ f, fuel = f + 2 := ⟨fuel - 2, by omega⟩
    have hv := readValue_write hl v fuel (writeMembers str num ms ++ r) (by omega) (endsNumber_writeMembers ms r)
    have hm := readMember_write hl k v hv
    have hs := readMembers_write hl ms (fuel + 1) r (by omega)
    obtain ⟨t, ht, -⟩ := hl.str_scan k (':' :: (v.write str num ++ (writeMembers str num ms ++ r)))
    simp only [JsonTree.write, List.cons_append, List.append_assoc]
    rw [ht] at hm ⊢
    rw [readValue_obj, hm, Option.bind_some, skipBlank_writeMembers, hs]
    rfl

theorem readItems_write (hl : Legible str num codes token) : ∀ (vs : List (JsonTree S N)) (fuel : Nat) (r : List Char),
    (writeItems str num vs).length ≤ fuel →
    readItems (fuel + 1) (writeItems str num vs ++ r) = some (JsonTree.mapItems codes token vs, r)
  | [], _, _, _ => rfl
  | v :: vs, fuel, r, hf => by
    simp only [writeItems, List.length_cons, List.length_append] at hf
    obtain ⟨fuel, rfl⟩ : ∃ f, fuel = f + 1 := ⟨fuel - 1, by omega⟩
    have hv := readValue_write hl v fuel (writeItems str num vs ++ r) (by omega) (endsNumber_writeItems vs r)
    have hs := readItems_write hl vs fuel r (by omega)
    simp only [writeItems, List.cons_append, List.append_assoc]
    rw [readItems.eq_def]
    simp only [skipBlank_write hl, hv, Option.bind_some, skipBlank_writeItems, hs, Option.map_some, JsonTree.mapItems]

theorem readMembers_write (hl : Legible str num codes token) : ∀ (ms : List (S × JsonTree S N)) (fuel : Nat)
    (r : List Char), (writeMembers str num ms).length ≤ fuel →
    readMembers (fuel + 1) (writeMembers str num ms ++ r) = some (JsonTree.mapMembers codes token ms, r)
  | [], _, _, _ => rfl
  | (k, v) :: ms, fuel, r, hf => by
    obtain ⟨t, ht, -⟩ := hl.str_scan k (':' :: (v.write str num ++ (writeMembers str num ms ++ r)))
    have hblank := skipBlank_cons (show isBlank '"' = false by decide) t
    rw [← ht] at hblank
    simp only [writeMembers, List.length_cons, List.length_append] at hf
    obtain ⟨fuel, rfl⟩ : ∃ f, fuel = f + 2 := ⟨fuel - 2, by omega⟩
    have hv := readValue_write hl v fuel (writeMembers str num ms ++ r) (by omega) (endsNumber_writeMembers ms r)
    have hm := readMember_write hl k v hv
    have hs := readMembers_write hl ms (fuel + 1) r (by omega)
    simp only [writeMembers, List.cons_append, List.append_assoc]
    rw [readMembers.eq_def]
    simp only [hblank, hm, Option.bind_some, skipBlank_writeMembers, hs, Option.map_some, JsonTree.mapMembers]

end

theorem readText_write (hl : Legible str num codes token) (v : JsonTree S N) :
    readText (v.write str num) = some (v.map codes token, []) := by
  have h := readValue_write hl v (v.write str num).length [] (Nat.le_refl _) endsNumber_nil
  have hblank := skipBlank_write hl v []
  rw [List.append_nil] at h hblank
  rw [readText, hblank, h]

/-- **The written text is one value, the one it was written from.** -/
theorem readDocument_write (hl : Legible str num codes token) (v : JsonTree S N) :
    readDocument (v.write str num) = some (v.map codes token) := by
  rw [readDocument, readText_write hl]
  rfl

end Write

end JsonReader
end Lib
