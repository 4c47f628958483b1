import HolGuard.Lib.PythonJson
import HolGuard.Wire.StrictJson
/-!
# The canonical JSON of approval contexts

Persisted approvals bind the bytes CPython's `json.dumps(value, sort_keys=True, separators=(",", ":"),
ensure_ascii=True, allow_nan=False)` once wrote, so the resident writes its own values the same way.
-/
namespace Guard.Wire

open Lib JsonReader

def contextComponentMaxBytes : Nat := 1048576

def errComponent : String := "native_context_component_invalid"

/-! ## Floats -/

section

variable (B : Binary64)

/-- Shortest digits, fixed notation when the decimal point sits in `(-4, 16]`, and a signed exponent of at least two
digits otherwise. -/
def pythonFloatRepr (f : B.F) : List Char :=
  let digits := B.digits f
  -- digits represent 0.d1d2...dn * 10^decpt
  let decpt := B.exponent f + 1
  let sign := if B.negative f then ['-'] else []
  if -4 < decpt ∧ decpt ≤ 16 then
    if decpt ≤ 0 then sign ++ ['0', '.'] ++ List.replicate (-decpt).toNat '0' ++ digits
    else if digits.length ≤ decpt then sign ++ digits ++ List.replicate (decpt - digits.length).toNat '0' ++ ['.', '0']
    else sign ++ digits.take decpt.toNat ++ ['.'] ++ digits.drop decpt.toNat
  else
    let mantissa := if 1 < digits.length then digits.take 1 ++ ['.'] ++ digits.drop 1 else digits
    let exponent := decpt - 1
    let power := Nat.toDigits 10 exponent.natAbs
    sign ++ mantissa ++ ['e', if exponent < 0 then '-' else '+'] ++ List.replicate (2 - power.length) '0' ++ power

def contextNumberText : Number B.F → Except String (List Char)
  | .int i => .ok (intText i.val)
  | .float f => if ¬ B.isFinite f then .error errComponent else .ok (pythonFloatRepr B f)

/-! ## The writer -/

/-- Everything written is ASCII, so characters are counted for bytes. -/
def checkLimit (limit : Nat) (out : List Char) : Except String (List Char) :=
  if limit < out.length then .error errComponent else .ok out

mutual

def writeCanonicalJsonWithLimit (limit : Nat) : NativeValue B.F → List Char → Except String (List Char)
  | .null, out => (checkLimit limit out).bind (fun out => checkLimit limit (out ++ ['n', 'u', 'l', 'l']))
  | .bool true, out => (checkLimit limit out).bind (fun out => checkLimit limit (out ++ ['t', 'r', 'u', 'e']))
  | .bool false, out => (checkLimit limit out).bind (fun out => checkLimit limit (out ++ ['f', 'a', 'l', 's', 'e']))
  | .num n, out => (checkLimit limit out).bind (fun out =>
      (contextNumberText B n).bind (fun text => checkLimit limit (out ++ text)))
  | .str s, out => (checkLimit limit out).bind (fun out => checkLimit limit (out ++ asciiString (codePoints s)))
  | .arr items, out => (checkLimit limit out).bind (fun out =>
      (writeArrayItems limit true items (out ++ ['['])).bind (fun out => checkLimit limit (out ++ [']'])))
  | .obj members, out => (checkLimit limit out).bind (fun out =>
      (writeObjectEntries limit true members (out ++ ['{'])).bind (fun out => checkLimit limit (out ++ ['}'])))

def writeArrayItems (limit : Nat) (first : Bool) : List (NativeValue B.F) → List Char → Except String (List Char)
  | [], out => .ok out
  | v :: vs, out =>
    (writeCanonicalJsonWithLimit limit v (if first then out else out ++ [','])).bind (writeArrayItems limit false vs)

/-- The map is iterated in its own order, which is that of the keys' bytes. -/
def writeObjectEntries (limit : Nat) (first : Bool) :
    List (String × NativeValue B.F) → List Char → Except String (List Char)
  | [], out => .ok out
  | (k, v) :: ms, out =>
    (writeCanonicalJsonWithLimit limit v
      ((if first then out else out ++ [',']) ++ asciiString (codePoints k) ++ [':'])).bind
      (writeObjectEntries limit false ms)

end

def writeContextJson (value : NativeValue B.F) (out : List Char) : Except String (List Char) :=
  writeCanonicalJsonWithLimit B contextComponentMaxBytes value out

end

/-! ## What the writer emits -/

/-- The text of a number the writer does not refuse. -/
def contextNumberSpelling (B : Binary64) : Number B.F → List Char
  | .int i => intText i.val
  | .float f => pythonFloatRepr B f

/-- Floats the writer does not refuse. -/
def FiniteNumber (B : Binary64) : Number B.F → Prop
  | .int _ => True
  | .float f => B.isFinite f = true

def contextText (B : Binary64) (v : NativeValue B.F) : List Char :=
  v.write (fun s => asciiString (codePoints s)) (contextNumberSpelling B)

section

variable {B : Binary64} {limit : Nat}

theorem contextNumberText_eq_ok {n : Number B.F} {text : List Char} :
    contextNumberText B n = .ok text ↔ FiniteNumber B n ∧ text = contextNumberSpelling B n := by
  cases n with
  | int i => simp [contextNumberText, FiniteNumber, contextNumberSpelling, eq_comm]
  | float f =>
    rw [contextNumberText, ite_error_eq_ok, Classical.not_not, Except.ok.injEq, FiniteNumber, contextNumberSpelling]
    exact and_congr_right (fun _ => eq_comm)

theorem checkLimit_eq_ok {out o : List Char} : checkLimit limit out = .ok o ↔ o = out ∧ o.length ≤ limit := by
  rw [checkLimit, ite_error_eq_ok, Except.ok.injEq, Nat.not_lt]
  constructor
  · rintro ⟨h, rfl⟩
    exact ⟨rfl, h⟩
  · rintro ⟨rfl, h⟩
    exact ⟨h, rfl⟩

/-- A writer that appends one text when the whole stays within the limit and some condition holds. -/
def Appends (limit : Nat) (write : List Char → Except String (List Char)) (P : Prop) (text : List Char) : Prop :=
  ∀ out o, write out = .ok o ↔ P ∧ o = out ++ text ∧ o.length ≤ limit

theorem appends_text (text : List Char) : Appends limit (fun out => checkLimit limit (out ++ text)) True text := by
  intro out o
  rw [checkLimit_eq_ok, true_and]

/-- The check at the start of a node refuses nothing the last one would not. -/
theorem Appends.checked {write : List Char → Except String (List Char)} {P : Prop} {text : List Char}
    (h : Appends limit write P text) : Appends limit (fun out => (checkLimit limit out).bind write) P text := by
  intro out o
  rw [← h out o]
  constructor
  · intro hbind
    obtain ⟨out', hout, hwrite⟩ := bind_eq_ok.1 hbind
    rwa [(checkLimit_eq_ok.1 hout).1] at hwrite
  · intro hwrite
    obtain ⟨-, ho, hlen⟩ := (h out o).1 hwrite
    rw [ho, List.length_append] at hlen
    exact bind_eq_ok.2 ⟨out, checkLimit_eq_ok.2 ⟨rfl, by omega⟩, hwrite⟩

/-- A loop writes an item, then the items that are left and what closes them. -/
theorem Appends.bind {write rest close : List Char → Except String (List Char)} {P Q : Prop} {text more : List Char}
    (h : Appends limit write P text) (hrest : Appends limit (fun out => (rest out).bind close) Q more) :
    Appends limit (fun out => ((write out).bind rest).bind close) (P ∧ Q) (text ++ more) := by
  intro out o
  have hassoc : ((write out).bind rest).bind close = (write out).bind (fun out => (rest out).bind close) :=
    bind_assoc (write out) rest close
  simp only [hassoc]
  constructor
  · intro hbind
    obtain ⟨mid, hmid, ho⟩ := bind_eq_ok.1 hbind
    obtain ⟨hP, rfl, -⟩ := (h out mid).1 hmid
    obtain ⟨hQ, rfl, hlen⟩ := (hrest _ o).1 ho
    exact ⟨⟨hP, hQ⟩, List.append_assoc _ _ _, hlen⟩
  · rintro ⟨⟨hP, hQ⟩, rfl, hlen⟩
    have hmid : (out ++ text).length ≤ limit := by
      simp only [List.length_append] at hlen ⊢
      omega
    exact bind_eq_ok.2
      ⟨out ++ text, (h _ _).2 ⟨hP, rfl, hmid⟩, (hrest _ _).2 ⟨hQ, (List.append_assoc _ _ _).symm, hlen⟩⟩

/-- Text pushed before a writer runs, without a check of its own. -/
theorem Appends.after {write : List Char → Except String (List Char)} {P : Prop} {text : List Char}
    (h : Appends limit write P text) (start : List Char) :
    Appends limit (fun out => write (out ++ start)) P (start ++ text) := by
  intro out o
  rw [h, List.append_assoc]

theorem appends_number (n : Number B.F) :
    Appends limit (fun out => (contextNumberText B n).bind (fun text => checkLimit limit (out ++ text)))
      (FiniteNumber B n) (contextNumberSpelling B n) := by
  intro out o
  constructor
  · intro h
    obtain ⟨text, hn, h⟩ := bind_eq_ok.1 h
    obtain ⟨hfin, rfl⟩ := contextNumberText_eq_ok.1 hn
    exact ⟨hfin, checkLimit_eq_ok.1 h⟩
  · rintro ⟨hfin, h⟩
    exact bind_eq_ok.2 ⟨_, contextNumberText_eq_ok.2 ⟨hfin, rfl⟩, checkLimit_eq_ok.2 h⟩

mutual

/-- **The writer emits the compact text of the value after what was there, when the whole stays within the limit.**  The
checks at inner nodes refuse nothing the last one would not. -/
theorem appends_value : ∀ v : NativeValue B.F,
    Appends limit (writeCanonicalJsonWithLimit B limit v) (v.EveryNumber (FiniteNumber B)) (contextText B v)
  | .null => (appends_text _).checked
  | .bool true => (appends_text _).checked
  | .bool false => (appends_text _).checked
  | .str _ => (appends_text _).checked
  | .num n => (appends_number n).checked
  | .arr [] => by
    have h := ((@appends_text limit [']']).after ['[']).checked
    exact h
  | .arr (v :: vs) => by
    have h := (((appends_value v).bind (appends_items vs)).after ['[']).checked
    intro out o
    refine Iff.trans ?_ (h out o)
    rw [writeCanonicalJsonWithLimit]
    simp only [writeArrayItems, if_true]
  | .obj [] => by
    have h := ((@appends_text limit ['}']).after ['{']).checked
    exact h
  | .obj ((k, v) :: ms) => by
    have h :=
      ((((appends_value v).bind (appends_entries ms)).after (asciiString (codePoints k) ++ [':'])).after ['{']).checked
    have htext : ['{'] ++ ((asciiString (codePoints k) ++ [':']) ++ (contextText B v ++
        JsonTree.writeMembers (fun s => asciiString (codePoints s)) (contextNumberSpelling B) ms)) =
        contextText B (.obj ((k, v) :: ms)) := by
      simp [contextText, JsonTree.write]
    intro out o
    rw [← htext]
    refine Iff.trans ?_ (h out o)
    rw [writeCanonicalJsonWithLimit]
    simp only [writeObjectEntries, if_true, List.append_assoc]

theorem appends_items : ∀ vs : List (NativeValue B.F),
    Appends limit (fun out => (writeArrayItems B limit false vs out).bind (fun out => checkLimit limit (out ++ [']'])))
      (JsonTree.EveryNumberItems (FiniteNumber B) vs)
      (JsonTree.writeItems (fun s => asciiString (codePoints s)) (contextNumberSpelling B) vs)
  | [] => appends_text _
  | v :: vs => by
    have h := ((appends_value v).bind (appends_items vs)).after [',']
    intro out o
    refine Iff.trans ?_ (h out o)
    simp only [writeArrayItems, Bool.false_eq_true, if_false]

theorem appends_entries : ∀ ms : List (String × NativeValue B.F),
    Appends limit
      (fun out => (writeObjectEntries B limit false ms out).bind (fun out => checkLimit limit (out ++ ['}'])))
      (JsonTree.EveryNumberMembers (FiniteNumber B) ms)
      (JsonTree.writeMembers (fun s => asciiString (codePoints s)) (contextNumberSpelling B) ms)
  | [] => appends_text _
  | (k, v) :: ms => by
    have h := (((appends_value v).bind (appends_entries ms)).after (asciiString (codePoints k) ++ [':'])).after [',']
    have htext : [','] ++ ((asciiString (codePoints k) ++ [':']) ++ (contextText B v ++
        JsonTree.writeMembers (fun s => asciiString (codePoints s)) (contextNumberSpelling B) ms)) =
        JsonTree.writeMembers (fun s => asciiString (codePoints s)) (contextNumberSpelling B) ((k, v) :: ms) := by
      simp [contextText, JsonTree.writeMembers]
    intro out o
    rw [← htext]
    refine Iff.trans ?_ (h out o)
    simp only [writeObjectEntries, Bool.false_eq_true, if_false, List.append_assoc]

end

end

end Guard.Wire
