import HolGuard.Lib.JsonReader
import HolGuard.Lib.Unicode
/-!
# Strings and integers as JSON text

The two ways runtimes spell a string, with every non-ASCII character escaped or with none, and the decimal spelling of
an integer; and that the reader takes each of them back.
-/
namespace Lib

open JsonReader

/-! ## Scalars -/

def isScalar (n : Nat) : Bool := n < 0xd800 || (0xdfff < n && n < 0x110000)

theorem isScalar_toNat (c : Char) : isScalar c.toNat = true := by
  unfold isScalar
  simp only [Bool.or_eq_true, Bool.and_eq_true, decide_eq_true_eq]
  exact c.valid

variable {n : Nat}

theorem isScalar_codePoints {s : String} (h : n ∈ codePoints s) : isScalar n = true := by
  obtain ⟨c, -, rfl⟩ := List.mem_map.1 h
  exact isScalar_toNat c

/-- The string of some code points, unless one is a surrogate. -/
def scalarString (codes : List Nat) : Option String :=
  if codes.all isScalar then some (String.ofList (codes.map Char.ofNat)) else none

theorem toNat_ofNat (h : isScalar n = true) : (Char.ofNat n).toNat = n := by
  have hv : n.isValidChar := by
    unfold isScalar at h
    simp only [Bool.or_eq_true, Bool.and_eq_true, decide_eq_true_eq] at h
    exact h
  rw [Char.ofNat, dif_pos hv]
  rfl

variable {codes : List Nat}

theorem map_toNat_ofNat (h : codes.all isScalar = true) :
    (codes.map Char.ofNat).map Char.toNat = codes := by
  rw [List.map_map]
  refine (List.map_congr_left (fun n hn => ?_)).trans (List.map_id codes)
  exact toNat_ofNat (List.all_eq_true.1 h n hn)

theorem scalarString_eq_some {s : String} : scalarString codes = some s ↔ codePoints s = codes := by
  have hto : ∀ codes : List Nat, codes.all isScalar = true →
      codePoints (String.ofList (codes.map Char.ofNat)) = codes := fun codes h => by
    rw [codePoints, String.toList_ofList, map_toNat_ofNat h]
  unfold scalarString
  constructor
  · intro h
    split at h
    · rename_i hall
      cases h
      exact hto codes hall
    · cases h
  · rintro rfl
    have hall : (codePoints s).all isScalar = true := List.all_eq_true.2 (fun n hn => isScalar_codePoints hn)
    rw [if_pos hall]
    exact congrArg some (codePoints_injective (hto _ hall))

@[simp] theorem scalarString_codePoints (s : String) : scalarString (codePoints s) = some s :=
  scalarString_eq_some.2 rfl

/-! ## Surrogates -/

/-- UTF-16 units of a code point. -/
def utf16Units (n : Nat) : List Nat :=
  if 0xffff < n then [0xd800 + (n - 0x10000) / 1024, 0xdc00 + (n - 0x10000) % 1024] else [n]

theorem joinSurrogates_cons (h : isHighSurrogate n = false) (us : List Nat) :
    joinSurrogates (n :: us) = n :: joinSurrogates us := by
  cases us with
  | nil => rfl
  | cons u us => rw [joinSurrogates, h, Bool.false_and, if_neg (by decide)]

theorem isHighSurrogate_of_isScalar (h : isScalar n = true) : isHighSurrogate n = false := by
  unfold isScalar at h
  unfold isHighSurrogate
  simp only [Bool.or_eq_true, Bool.and_eq_true, decide_eq_true_eq] at h
  simp only [Bool.and_eq_false_iff, decide_eq_false_iff_not]
  omega

theorem joinSurrogates_of_isScalar (h : ∀ n ∈ codes, isScalar n = true) :
    joinSurrogates codes = codes := by
  induction codes with
  | nil => rfl
  | cons n codes ih =>
    rw [joinSurrogates_cons (isHighSurrogate_of_isScalar (h n List.mem_cons_self)),
      ih (fun m hm => h m (List.mem_cons_of_mem n hm))]

theorem joinSurrogates_utf16 (h : isScalar n = true) (us : List Nat) :
    joinSurrogates (utf16Units n ++ us) = n :: joinSurrogates us := by
  unfold utf16Units
  split
  · rename_i hbig
    have hhigh : isHighSurrogate (0xd800 + (n - 0x10000) / 1024) = true := by
      unfold isScalar at h
      unfold isHighSurrogate
      simp only [Bool.or_eq_true, Bool.and_eq_true, decide_eq_true_eq] at h ⊢
      omega
    have hlow : isLowSurrogate (0xdc00 + (n - 0x10000) % 1024) = true := by
      unfold isLowSurrogate
      simp only [Bool.and_eq_true, decide_eq_true_eq]
      omega
    rw [List.cons_append, List.cons_append, List.nil_append, joinSurrogates, hhigh, hlow, if_pos (by decide)]
    have hn : 0x10000 + (0xd800 + (n - 0x10000) / 1024 - 0xd800) * 0x400 + (0xdc00 + (n - 0x10000) % 1024 - 0xdc00) =
        n := by
      omega
    rw [hn]
  · exact joinSurrogates_cons (isHighSurrogate_of_isScalar h) us

theorem joinSurrogates_flatMap_utf16 (h : ∀ n ∈ codes, isScalar n = true) :
    joinSurrogates (codes.flatMap utf16Units) = codes := by
  induction codes with
  | nil => rfl
  | cons n codes ih =>
    rw [List.flatMap_cons, joinSurrogates_utf16 (h n List.mem_cons_self),
      ih (fun m hm => h m (List.mem_cons_of_mem n hm))]

/-! ## Strings in ASCII -/

def hexUnitText (u : Nat) : List Char :=
  ['\\', 'u', hexDigit (u / 4096 % 16), hexDigit (u / 256 % 16), hexDigit (u / 16 % 16), hexDigit (u % 16)]

/-- A code point with only printable ASCII characters; above the basic plane, as its two surrogates. -/
def asciiEscape (n : Nat) : List Char :=
  if n = 34 then ['\\', '"']
  else if n = 92 then ['\\', '\\']
  else if n = 8 then ['\\', 'b']
  else if n = 9 then ['\\', 't']
  else if n = 10 then ['\\', 'n']
  else if n = 12 then ['\\', 'f']
  else if n = 13 then ['\\', 'r']
  else if n < 32 ∨ 126 < n then (utf16Units n).flatMap hexUnitText
  else [Char.ofNat n]

def asciiString (codes : List Nat) : List Char := '"' :: (codes.flatMap asciiEscape ++ ['"'])

theorem hexCode_hexDigit : ∀ n, n < 16 → hexCode (hexDigit n) = some n := by decide

theorem scanUnits_hexUnitText {u : Nat} (h : u < 65536) (r : List Char) :
    scanUnits (hexUnitText u ++ r) = (scanUnits r).map (fun q => (u :: q.1, q.2)) := by
  unfold hexUnitText
  simp only [List.cons_append, List.nil_append]
  rw [scanUnits, hexUnit, hexCode_hexDigit _ (Nat.mod_lt _ (by decide)), hexCode_hexDigit _ (Nat.mod_lt _ (by decide)),
    hexCode_hexDigit _ (Nat.mod_lt _ (by decide)), hexCode_hexDigit _ (Nat.mod_lt _ (by decide))]
  have hu : ((u / 4096 % 16 * 16 + u / 256 % 16) * 16 + u / 16 % 16) * 16 + u % 16 = u := by omega
  simp only [Option.bind_eq_bind, Option.bind_some, hu]

theorem scanUnits_plain {c : Char} (hq : c ≠ '"') (hb : c ≠ '\\') (hc : 32 ≤ c.toNat) (r : List Char) :
    scanUnits (c :: r) = (scanUnits r).map (fun q => (c.toNat :: q.1, q.2)) := by
  rw [scanUnits.eq_def]
  split <;> simp_all

theorem utf16Units_lt (h : n < 1114112) {u : Nat} (hu : u ∈ utf16Units n) : u < 65536 := by
  unfold utf16Units at hu
  split at hu
  · simp only [List.mem_cons, List.not_mem_nil, or_false] at hu
    omega
  · simp only [List.mem_cons, List.not_mem_nil, or_false] at hu
    omega

theorem scanUnits_hexUnitTexts {us : List Nat} (h : ∀ u ∈ us, u < 65536) (r : List Char) :
    scanUnits (us.flatMap hexUnitText ++ r) = (scanUnits r).map (fun q => (us ++ q.1, q.2)) := by
  induction us with
  | nil => simp
  | cons u us ih =>
    rw [List.flatMap_cons, List.append_assoc, scanUnits_hexUnitText (h u List.mem_cons_self),
      ih (fun w hw => h w (List.mem_cons_of_mem u hw)), Option.map_map]
    rfl

theorem utf16Units_small (h : n < 65536) : utf16Units n = [n] := by
  unfold utf16Units
  rw [if_neg (by omega)]

theorem scanUnits_asciiEscape (h : isScalar n = true) (r : List Char) :
    scanUnits (asciiEscape n ++ r) = (scanUnits r).map (fun q => (utf16Units n ++ q.1, q.2)) := by
  have hmax : n < 1114112 := by
    unfold isScalar at h
    simp only [Bool.or_eq_true, Bool.and_eq_true, decide_eq_true_eq] at h
    omega
  unfold asciiEscape
  split
  · subst_vars; rfl
  split
  · subst_vars; rfl
  split
  · subst_vars; rfl
  split
  · subst_vars; rfl
  split
  · subst_vars; rfl
  split
  · subst_vars; rfl
  split
  · subst_vars; rfl
  split
  · exact scanUnits_hexUnitTexts (fun u hu => utf16Units_lt hmax hu) r
  · rename_i hq hb _ _ _ _ _ hprint
    have hn := toNat_ofNat h
    have hne : ∀ c : Char, n ≠ c.toNat → Char.ofNat n ≠ c := fun c hc he => hc (by rw [← hn, he])
    rw [utf16Units_small (by omega), List.singleton_append,
      scanUnits_plain (hne '"' hq) (hne '\\' hb) (by rw [hn]; omega), hn]
    rfl

theorem scanUnits_asciiEscapes (h : ∀ n ∈ codes, isScalar n = true) (r : List Char) :
    scanUnits (codes.flatMap asciiEscape ++ '"' :: r) = some (codes.flatMap utf16Units, r) := by
  induction codes with
  | nil => rfl
  | cons n codes ih =>
    rw [List.flatMap_cons, List.append_assoc, scanUnits_asciiEscape (h n List.mem_cons_self),
      ih (fun m hm => h m (List.mem_cons_of_mem n hm))]
    rfl

theorem scanString_asciiString (h : ∀ n ∈ codes, isScalar n = true) (r : List Char) :
    ∃ t, asciiString codes ++ r = '"' :: t ∧ scanString t = some (codes, r) := by
  refine ⟨codes.flatMap asciiEscape ++ '"' :: r, by simp [asciiString], ?_⟩
  rw [scanString, scanUnits_asciiEscapes h, Option.map_some, joinSurrogates_flatMap_utf16 h]

/-! ## Strings with their characters as they are -/

/-- The escapes a JSON writer must use, and no others. -/
def escapeChar (c : Char) : List Char :=
  if c = '"' then ['\\', '"']
  else if c = '\\' then ['\\', '\\']
  else if c = '\n' then ['\\', 'n']
  else if c = '\r' then ['\\', 'r']
  else if c = '\t' then ['\\', 't']
  else if c.toNat = 8 then ['\\', 'b']
  else if c.toNat = 12 then ['\\', 'f']
  else if c.toNat < 32 then ['\\', 'u', '0', '0', hexDigit (c.toNat / 16), hexDigit (c.toNat % 16)]
  else [c]

def writeString (s : String) : List Char := '"' :: (s.toList.flatMap escapeChar ++ ['"'])

theorem scanUnits_escapeChar (c : Char) (r : List Char) :
    scanUnits (escapeChar c ++ r) = (scanUnits r).map (fun q => (c.toNat :: q.1, q.2)) := by
  unfold escapeChar
  split
  · subst_vars; rfl
  split
  · subst_vars; rfl
  split
  · subst_vars; rfl
  split
  · subst_vars; rfl
  split
  · subst_vars; rfl
  split
  · rename_i h8
    rw [h8]; rfl
  split
  · rename_i h12
    rw [h12]; rfl
  split
  · rename_i hsmall
    have hu : hexUnitText c.toNat =
        ['\\', 'u', '0', '0', hexDigit (c.toNat / 16), hexDigit (c.toNat % 16)] := by
      have h1 : c.toNat / 4096 % 16 = 0 := by omega
      have h2 : c.toNat / 256 % 16 = 0 := by omega
      have h3 : c.toNat / 16 % 16 = c.toNat / 16 := by omega
      rw [hexUnitText, h1, h2, h3]
      rfl
    rw [← hu]
    exact scanUnits_hexUnitText (by omega) r
  · rename_i hq hb _ _ _ _ _ hprint
    exact scanUnits_plain hq hb (by omega) r

theorem scanUnits_escapeChars (cs : List Char) (r : List Char) :
    scanUnits (cs.flatMap escapeChar ++ '"' :: r) = some (cs.map Char.toNat, r) := by
  induction cs with
  | nil => rfl
  | cons c cs ih =>
    rw [List.flatMap_cons, List.append_assoc, scanUnits_escapeChar, ih]
    rfl

theorem scanString_writeString (s : String) (r : List Char) :
    ∃ t, writeString s ++ r = '"' :: t ∧ scanString t = some (codePoints s, r) := by
  refine ⟨s.toList.flatMap escapeChar ++ '"' :: r, by simp [writeString], ?_⟩
  rw [scanString, scanUnits_escapeChars, Option.map_some]
  exact congrArg (fun codes => some (codes, r)) (joinSurrogates_of_isScalar (fun n hn => isScalar_codePoints hn))

/-! ## Integers -/

def intText (i : Int) : List Char := if i < 0 then '-' :: Nat.toDigits 10 i.natAbs else Nat.toDigits 10 i.natAbs

/-- The spelling of an integer. -/
def intToken (i : Int) : NumberToken := .numeral ⟨decide (i < 0), Nat.toDigits 10 i.natAbs, none, none⟩

/-- The integer a numeral without fraction and exponent spells. -/
def Numeral.integer (n : Numeral) : Int :=
  if n.negative then -(Nat.ofDigitChars 10 n.digits 0 : Int) else (Nat.ofDigitChars 10 n.digits 0 : Int)

theorem integer_intToken (i : Int) : Numeral.integer ⟨decide (i < 0), Nat.toDigits 10 i.natAbs, none, none⟩ = i := by
  unfold Numeral.integer
  simp only [Nat.ofDigitChars_ten_toDigits, decide_eq_true_eq]
  split <;> omega

theorem toDigits_head_ne_zero (h : 0 < n) : (Nat.toDigits 10 n).head? ≠ some '0' := by
  induction n using Nat.strong_induction_on with
  | _ n ih =>
    by_cases hn : n < 10
    · rw [Nat.toDigits_of_lt_base hn]
      exact fun hz => Nat.ne_of_gt h (Nat.digitChar_eq_zero.1 (Option.some.inj hz))
    · rw [Nat.toDigits_of_base_le (by decide) (by omega), List.head?_append_of_ne_nil _ Nat.toDigits_ne_nil]
      exact ih (n / 10) (by omega) (by omega)

/-- Nothing that continues a number's digits. -/
def NoDigitHead (r : List Char) : Prop := ∀ c ∈ r.head?, c.isDigit = false

theorem noDigitHead_cons {c : Char} {r : List Char} (h : c.isDigit = false) : NoDigitHead (c :: r) := by
  intro d hd
  cases hd
  exact h

variable {ds r : List Char}

theorem span_digits (hds : ∀ c ∈ ds, c.isDigit = true) (hr : NoDigitHead r) :
    (ds ++ r).takeWhile Char.isDigit = ds ∧ (ds ++ r).dropWhile Char.isDigit = r := by
  have hnone : r.takeWhile Char.isDigit = [] ∧ r.dropWhile Char.isDigit = r := by
    cases r with
    | nil => exact ⟨rfl, rfl⟩
    | cons c r => simp [hr c rfl]
  rw [List.takeWhile_append_of_pos hds, List.dropWhile_append_of_pos hds, hnone.1, hnone.2, List.append_nil]
  exact ⟨rfl, rfl⟩

/-- The digits of an integer part: some, and no digit after a leading zero. -/
structure IntegerDigits (ds : List Char) : Prop where
  ne_nil : ds ≠ []
  digit : ∀ c ∈ ds, c.isDigit = true
  leading : 1 < ds.length → ds.head? ≠ some '0'

/-- The digits of a fraction or an exponent. -/
structure SomeDigits (ds : List Char) : Prop where
  ne_nil : ds ≠ []
  digit : ∀ c ∈ ds, c.isDigit = true

theorem integerDigits_toDigits (n : Nat) : IntegerDigits (Nat.toDigits 10 n) where
  ne_nil := Nat.toDigits_ne_nil
  digit _ hc := Nat.isDigit_of_mem_toDigits (by decide) (by decide) hc
  leading hlen := by
    by_cases hn : n = 0
    · subst hn
      exact absurd hlen (by decide)
    · exact toDigits_head_ne_zero (by omega)

theorem IntegerDigits.head (h : IntegerDigits ds) : ∃ c t, ds = c :: t ∧ c.isDigit = true := by
  obtain ⟨c, t, rfl⟩ := List.exists_cons_of_ne_nil h.ne_nil
  exact ⟨c, t, rfl, h.digit c List.mem_cons_self⟩

theorem someDigits_append {zs : List Char} (hds : SomeDigits ds) (hzs : ∀ c ∈ zs, c.isDigit = true) :
    SomeDigits (zs ++ ds) where
  ne_nil h := hds.ne_nil (List.append_eq_nil_iff.1 h).2
  digit c hc := (List.mem_append.1 hc).elim (hzs c) (hds.digit c)

theorem isDigit_of_mem_zeros {c : Char} (h : c ∈ List.replicate n '0') : c.isDigit = true := by
  rw [(List.mem_replicate.1 h).2]
  decide

theorem IntegerDigits.someDigits (h : IntegerDigits ds) : SomeDigits ds := ⟨h.ne_nil, h.digit⟩

theorem IntegerDigits.singleton {c : Char} (h : c.isDigit = true) : IntegerDigits [c] where
  ne_nil := List.cons_ne_nil _ _
  digit d hd := by rwa [List.mem_singleton.1 hd]
  leading hlen := absurd hlen (by simp)

theorem IntegerDigits.take (h : IntegerDigits ds) {k : Nat} (hk : 0 < k) (hlen : k < ds.length) :
    IntegerDigits (ds.take k) where
  ne_nil := by
    rw [← List.length_pos_iff, List.length_take]
    omega
  digit c hc := h.digit c (List.mem_of_mem_take hc)
  leading _ := by
    rw [List.head?_take, if_neg (by omega)]
    exact h.leading (by omega)

theorem someDigits_drop (h : IntegerDigits ds) {k : Nat} (hlen : k < ds.length) :
    SomeDigits (ds.drop k) where
  ne_nil := by
    rw [← List.length_pos_iff, List.length_drop]
    omega
  digit c hc := h.digit c (List.mem_of_mem_drop hc)

theorem readUnsigned_digits (negative : Bool) (hds : IntegerDigits ds) (hr : NoDigitHead r) :
    readUnsigned negative (ds ++ r) = (readFraction r).bind (fun f =>
      (readExponent f.2).map (fun e => (⟨negative, ds, f.1, e.1⟩, e.2))) := by
  obtain ⟨h1, h2⟩ := span_digits hds.digit hr
  have hne : ds.isEmpty = false := by simpa using hds.ne_nil
  have hlead : (decide (1 < ds.length) && ds.head? == some '0') = false := by
    rw [Bool.and_eq_false_imp, decide_eq_true_eq]
    exact fun hlen => by simpa using hds.leading hlen
  unfold readUnsigned
  simp only [h1, h2, hne, hlead, Bool.or_false, Bool.false_eq_true, if_false]

theorem readFraction_none (h : ∀ c ∈ r.head?, c ≠ '.') : readFraction r = some (none, r) := by
  unfold readFraction
  split
  · exact absurd rfl (h '.' rfl)
  · rfl

theorem readFraction_some {fs : List Char} (hfs : SomeDigits fs) (hr : NoDigitHead r) :
    readFraction ('.' :: (fs ++ r)) = some (some fs, r) := by
  obtain ⟨h1, h2⟩ := span_digits hfs.digit hr
  have hne : fs.isEmpty = false := by simpa using hfs.ne_nil
  simp only [readFraction, h1, h2, hne, Bool.false_eq_true, if_false]

theorem readExponent_none (h : ∀ c ∈ r.head?, c ≠ 'e' ∧ c ≠ 'E') :
    readExponent r = some (none, r) := by
  unfold readExponent
  split
  · rename_i c t
    rw [if_neg (fun hc => hc.elim (h c rfl).1 (h c rfl).2)]
  · rfl

theorem readExponent_some {sign : Char} (hsign : sign = '+' ∨ sign = '-') {ps : List Char}
    (hps : SomeDigits ps) (hr : NoDigitHead r) :
    readExponent ('e' :: sign :: (ps ++ r)) = some (some (sign :: ps), r) := by
  obtain ⟨h1, h2⟩ := span_digits hps.digit hr
  have hne : ps.isEmpty = false := by simpa using hps.ne_nil
  have hsplit : splitSign (sign :: (ps ++ r)) = ([sign], ps ++ r) := by
    rcases hsign with rfl | rfl <;> rfl
  simp only [readExponent, true_or, if_true, hsplit, h1, h2, hne, Bool.false_eq_true, if_false]
  rfl

theorem JsonReader.EndsNumber.noDigitHead (h : EndsNumber r) :
    NoDigitHead r := fun c hc => (h c hc).1

theorem readNumber_minus {c : Char} (hc : c.isDigit = true) (r : List Char) :
    readNumber ('-' :: c :: r) = (readUnsigned true (c :: r)).map (fun q => (.numeral q.1, q.2)) := by
  rw [readNumber.eq_def]
  split
  all_goals first
    | (rename_i heq
       obtain ⟨-, heq⟩ := List.cons.inj heq
       obtain ⟨rfl, -⟩ := List.cons.inj heq
       exact absurd hc (by decide))
    | simp_all

theorem readNumber_digit {c : Char} (hc : c.isDigit = true) (r : List Char) :
    readNumber (c :: r) = (readUnsigned false (c :: r)).map (fun q => (.numeral q.1, q.2)) := by
  rw [readNumber.eq_def]
  split
  all_goals first
    | rfl
    | (rename_i heq
       obtain ⟨rfl, -⟩ := List.cons.inj heq
       exact absurd hc (by decide))

/-! ## Numerals -/

def Numeral.text (n : Numeral) : List Char :=
  (if n.negative then ['-'] else []) ++ (n.digits ++ (n.fraction.elim [] ('.' :: ·) ++ n.exponent.elim [] ('e' :: ·)))

/-- A numeral as writers spell it: its exponent has a sign. -/
structure Numeral.Grammatical (n : Numeral) : Prop where
  digits : IntegerDigits n.digits
  fraction : ∀ fs ∈ n.fraction, SomeDigits fs
  exponent : ∀ es ∈ n.exponent, ∃ sign ps, es = sign :: ps ∧ (sign = '+' ∨ sign = '-') ∧ SomeDigits ps

theorem readUnsigned_text {n : Numeral} (h : n.Grammatical) (hr : EndsNumber r) : readUnsigned n.negative
    (n.digits ++ (n.fraction.elim [] ('.' :: ·) ++ (n.exponent.elim [] ('e' :: ·) ++ r))) = some (n, r) := by
  obtain ⟨negative, ds, fraction, exponent⟩ := n
  have hexponent : NoDigitHead (exponent.elim [] ('e' :: ·) ++ r) ∧
      (∀ c ∈ (exponent.elim [] ('e' :: ·) ++ r).head?, c ≠ '.') ∧
      readExponent (exponent.elim [] ('e' :: ·) ++ r) = some (exponent, r) := by
    cases exponent with
    | none => exact ⟨hr.noDigitHead, fun c hc => (hr c hc).2.1, readExponent_none fun c hc => (hr c hc).2.2⟩
    | some es =>
      obtain ⟨sign, ps, rfl, hsign, hps⟩ := h.exponent es rfl
      refine ⟨noDigitHead_cons (by decide), fun c hc => ?_, readExponent_some hsign hps hr.noDigitHead⟩
      cases hc
      decide
  obtain ⟨hdigit, hpoint, hread⟩ := hexponent
  simp only
  cases fraction with
  | none =>
    rw [Option.elim_none, List.nil_append, readUnsigned_digits negative h.digits hdigit, readFraction_none hpoint,
      Option.bind_some, hread]
    rfl
  | some fs =>
    rw [Option.elim_some, List.cons_append, readUnsigned_digits negative h.digits (noDigitHead_cons (by decide)),
      readFraction_some (h.fraction fs rfl) hdigit, Option.bind_some, hread]
    rfl

theorem Numeral.Grammatical.head {n : Numeral} (h : n.Grammatical) :
    ∃ c t, n.text = c :: t ∧ (c = '-' ∨ c.isDigit = true) := by
  obtain ⟨c, t, hds, hc⟩ := h.digits.head
  rw [Numeral.text, hds]
  split
  · exact ⟨_, _, rfl, .inl rfl⟩
  · exact ⟨_, _, rfl, .inr hc⟩

/-- **The text of a numeral is read back as the numeral.** -/
theorem readNumber_text {n : Numeral} (h : n.Grammatical) (hr : EndsNumber r) :
    readNumber (n.text ++ r) = some (.numeral n, r) := by
  obtain ⟨c, t, hds, hc⟩ := h.digits.head
  have hread := readUnsigned_text h hr
  simp only [Numeral.text, List.append_assoc]
  rw [hds, List.cons_append] at hread ⊢
  cases hsign : n.negative with
  | false =>
    rw [hsign] at hread
    rw [if_neg (by decide), List.nil_append, readNumber_digit hc, hread]
    rfl
  | true =>
    rw [hsign] at hread
    rw [if_pos rfl, List.singleton_append, readNumber_minus hc, hread]
    rfl

theorem intText_eq (i : Int) : intText i = Numeral.text ⟨decide (i < 0), Nat.toDigits 10 i.natAbs, none, none⟩ := by
  unfold intText Numeral.text
  split <;> simp_all

theorem grammatical_intToken (i : Int) :
    Numeral.Grammatical ⟨decide (i < 0), Nat.toDigits 10 i.natAbs, none, none⟩ :=
  ⟨integerDigits_toDigits _, nofun, nofun⟩

theorem intText_head (i : Int) : ∃ c t, intText i = c :: t ∧ (c = '-' ∨ c.isDigit = true) := by
  rw [intText_eq]
  exact (grammatical_intToken i).head

/-- **An integer's decimal text is read back as its spelling.** -/
theorem readNumber_intText (i : Int) (hr : EndsNumber r) : readNumber (intText i ++ r) = some (intToken i, r) := by
  rw [intText_eq]
  exact readNumber_text (grammatical_intToken i) hr

end Lib
