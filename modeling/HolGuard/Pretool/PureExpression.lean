import HolGuard.Lib.AsciiText
/-!
# Inline expressions

`pure_expression.rs`: the recursive-descent reader that lets constant arithmetic in an inline script pass.  The cursor
of the source is what is left of the text; its functions return the rest they leave, or nothing where the source returns
`false`.  The reader only compares ASCII characters, so it is the same on characters as on bytes.
-/
namespace Guard
namespace PureExpression

/-- `u8::is_ascii_whitespace` -/
def isBlank (c : Char) : Bool := c == ' ' || c == '\t' || c == '\n' || c == '\x0c' || c == '\r'

def isSum (c : Char) : Bool := c == '+' || c == '-'

def isProduct (c : Char) : Bool := c == '*' || c == '/' || c == '%'

def whitespace (text : List Char) : List Char := text.dropWhile isBlank

/-- The loop of `expression` and of `term`: operands after operators, for as long as an operator follows.  Every turn
takes an operator off the text, so as many turns as the text is long are enough. -/
def operands (isOperator : Char → Bool) (operand : List Char → Option (List Char)) (turns : Nat) (text : List Char) :
    Option (List Char) :=
  match whitespace text, turns with
  | c :: rest, turns + 1 =>
    if isOperator c then (operand rest).bind (operands isOperator operand turns) else some (c :: rest)
  | rest, _ => some rest

def chain (isOperator : Char → Bool) (operand : List Char → Option (List Char)) (text : List Char) :
    Option (List Char) :=
  (operand text).bind (operands isOperator operand text.length)

/-- `atom` at the depth 8 less `levels`. -/
def atom : Nat → List Char → Option (List Char)
  | 0, _ => none
  | levels + 1, text =>
    match whitespace text with
    | [] => none
    | c :: rest =>
      if isSum c then atom levels rest
      else if c = '(' then
        (chain isSum (chain isProduct (atom levels)) rest).bind (fun rest =>
          match whitespace rest with
          | ')' :: rest => some rest
          | _ => none)
      else
        let digits := (c :: rest).takeWhile Char.isDigit
        if 1 ≤ digits.length ∧ digits.length ≤ 9 then some ((c :: rest).dropWhile Char.isDigit) else none

def term (levels : Nat) : List Char → Option (List Char) := chain isProduct (atom levels)

def expression (levels : Nat) : List Char → Option (List Char) := chain isSum (term levels)

def flagExpected (executable : String) : String :=
  if executable = "python" ∨ executable = "python3" then "-c" else "-e"

def opening (executable : String) : List Char :=
  (if executable = "python" ∨ executable = "python3" then "print(" else "console.log(").toList

def safeInlineExpression (executable : String) (arguments : List String) : Bool :=
  match arguments with
  | [flag, script] =>
    let text := Lib.trim script.toList
    if flag ≠ flagExpected executable ∨ 256 < script.utf8ByteSize then false
    else if !(opening executable).isPrefixOf text then false
    else
      let value := text.drop (opening executable).length
      if value.getLast? ≠ some ')' then false
      else (expression 8 value.dropLast).any (fun rest => (whitespace rest).isEmpty)
  | _ => false

/-! ## The grammar -/

def Blank (text : List Char) : Prop := ∀ c ∈ text, isBlank c = true

/-- Operands with operators between them, and blanks before the operators. -/
inductive Chain (isOperator : Char → Bool) (Operand : List Char → Prop) : List Char → Prop where
  | one {t : List Char} : Operand t → Chain isOperator Operand t
  | more {t blanks u : List Char} {c : Char} : Operand t → Blank blanks → isOperator c = true →
    Chain isOperator Operand u → Chain isOperator Operand (t ++ (blanks ++ c :: u))

/-- An atom, given the atoms that may stand inside it. -/
inductive AtomOver (Inner : List Char → Prop) : List Char → Prop where
  | sign {blanks t : List Char} {c : Char} : Blank blanks → isSum c = true → Inner t → AtomOver Inner (blanks ++ c :: t)
  | parens {blanks t after : List Char} : Blank blanks → Chain isSum (Chain isProduct Inner) t → Blank after →
    AtomOver Inner (blanks ++ '(' :: (t ++ (after ++ [')'])))
  | number {blanks digits : List Char} : Blank blanks → (∀ d ∈ digits, d.isDigit = true) → 1 ≤ digits.length →
    digits.length ≤ 9 → AtomOver Inner (blanks ++ digits)

/-- An atom with fewer than so many signs and parentheses around any number. -/
def IsAtom : Nat → List Char → Prop
  | 0 => fun _ => False
  | levels + 1 => AtomOver (IsAtom levels)

def IsTerm (levels : Nat) : List Char → Prop := Chain isProduct (IsAtom levels)

def IsExpr (levels : Nat) : List Char → Prop := Chain isSum (IsTerm levels)

/-! ## The reader and the grammar -/

theorem digit_plain {d : Char} (h : d.isDigit = true) :
    isBlank d = false ∧ isSum d = false ∧ isProduct d = false ∧ d ≠ '(' := by
  refine ⟨?_, ?_, ?_, by rintro rfl; cases h⟩
  all_goals
    by_contra hc
    simp only [isBlank, isSum, isProduct, Bool.not_eq_false, Bool.or_eq_true, beq_iff_eq] at hc
    aesop

theorem sum_plain {c : Char} (h : isSum c = true) : isBlank c = false ∧ c.isDigit = false ∧ isProduct c = false := by
  simp only [isSum, Bool.or_eq_true, beq_iff_eq] at h
  obtain rfl | rfl := h <;> decide

theorem product_plain {c : Char} (h : isProduct c = true) :
    isBlank c = false ∧ c.isDigit = false ∧ isSum c = false := by
  simp only [isProduct, Bool.or_eq_true, beq_iff_eq] at h
  obtain (rfl | rfl) | rfl := h <;> decide

theorem isDigit_of_isBlank {c : Char} (h : isBlank c = true) : c.isDigit = false :=
  Bool.eq_false_iff.2 (fun hc => by rw [(digit_plain hc).1] at h; cases h)

theorem whitespace_append {blanks : List Char} (h : Blank blanks) (text : List Char) :
    whitespace (blanks ++ text) = whitespace text :=
  List.dropWhile_append_of_pos h

theorem exists_blank (text : List Char) : ∃ blanks, Blank blanks ∧ text = blanks ++ whitespace text :=
  ⟨text.takeWhile isBlank, fun _ => List.mem_takeWhile_imp, (List.takeWhile_append_dropWhile ..).symm⟩

/-- What follows an operand goes on with no digit, and after blanks with none of these operators. -/
structure Follows (isOperator : Char → Bool) (rest : List Char) : Prop where
  digit : ∀ c, rest.head? = some c → c.isDigit = false
  operator : ∀ c, (whitespace rest).head? = some c → isOperator c = false

theorem whitespace_next {blanks : List Char} {c : Char} (hblanks : Blank blanks) (hc : isBlank c = false)
    (rest : List Char) : whitespace (blanks ++ c :: rest) = c :: rest := by
  rw [whitespace_append hblanks, whitespace, List.dropWhile_cons_of_neg (by simp [hc])]

theorem follows_next {isOperator : Char → Bool} {blanks : List Char} {c : Char} (hblanks : Blank blanks)
    (hc : isBlank c = false) (hdigit : c.isDigit = false) (hoperator : isOperator c = false) (rest : List Char) :
    Follows isOperator (blanks ++ c :: rest) := by
  refine ⟨fun d hd => ?_, fun d hd => ?_⟩
  · cases blanks with
    | nil =>
      cases hd
      exact hdigit
    | cons b blanks =>
      cases hd
      exact isDigit_of_isBlank (hblanks _ (List.mem_cons_self ..))
  · rw [whitespace_next hblanks hc] at hd
    cases hd
    exact hoperator

/-- A reader takes the texts of a grammar off the front, and perhaps blanks after them. -/
structure Reads (read : List Char → Option (List Char)) (Text : List Char → Prop) (isOperator : Char → Bool) :
    Prop where
  sound : ∀ {text rest}, read text = some rest → ∃ t blanks, Text t ∧ Blank blanks ∧ text = t ++ (blanks ++ rest)
  complete : ∀ {t rest}, Text t → Follows isOperator rest → ∃ left, read (t ++ rest) = some left ∧
    whitespace left = whitespace rest

section Chains

variable {isOperator others : Char → Bool} {operand : List Char → Option (List Char)} {Text : List Char → Prop}

theorem operands_sound (h : Reads operand Text others) : ∀ {turns : Nat} {text rest : List Char},
    operands isOperator operand turns text = some rest → ∃ blanks, Blank blanks ∧ (text = blanks ++ rest ∨
      ∃ c u after, isOperator c = true ∧ Chain isOperator Text u ∧ Blank after ∧
        text = blanks ++ c :: (u ++ (after ++ rest)))
  | turns, text, rest, hrun => by
    obtain ⟨blanks, hblanks, htext⟩ := exists_blank text
    refine ⟨blanks, hblanks, ?_⟩
    unfold operands at hrun
    split at hrun
    · rename_i c tail turns hrest
      split at hrun
      · rename_i hc
        obtain ⟨left, hread, hloop⟩ := Option.bind_eq_some_iff.1 hrun
        obtain ⟨t, gap, ht, hgap, rfl⟩ := h.sound hread
        rw [hrest] at htext
        obtain ⟨more, hmore, rfl | ⟨d, u, after, hd, hu, hafter, rfl⟩⟩ := operands_sound h hloop
        · exact .inr ⟨c, t, gap ++ more, hc, .one ht, List.forall_mem_append.2 ⟨hgap, hmore⟩, by simpa using htext⟩
        · refine .inr ⟨c, _, after, hc, .more ht (List.forall_mem_append.2 ⟨hgap, hmore⟩) hd hu, hafter, ?_⟩
          simpa using htext
      · rw [← hrest] at hrun
        exact .inl (Option.some.inj hrun ▸ htext)
    · exact .inl (Option.some.inj hrun ▸ htext)

theorem chain_complete (h : Reads operand Text others)
    (hop : ∀ c, isOperator c = true → isBlank c = false ∧ c.isDigit = false ∧ others c = false) {t rest : List Char}
    (ht : Chain isOperator Text t) (hrest : Follows (fun c => others c || isOperator c) rest) :
    ∀ {turns : Nat}, (t ++ rest).length ≤ turns →
      (operand (t ++ rest)).bind (operands isOperator operand turns) = some (whitespace rest) := by
  induction ht with
  | one ht =>
    intro turns _
    obtain ⟨left, hread, hleft⟩ :=
      h.complete ht ⟨hrest.digit, fun c hc => (Bool.or_eq_false_iff.1 (hrest.operator c hc)).1⟩
    rw [hread, Option.bind_some]
    unfold operands
    rw [hleft]
    cases hw : whitespace rest with
    | nil => rfl
    | cons c tail =>
      have hnot := (Bool.or_eq_false_iff.1 (hrest.operator c (by rw [hw]; rfl))).2
      cases turns with
      | zero => rfl
      | succ n => simp [hnot]
  | @more t blanks u c ht hblanks hc _ ih =>
    intro turns hturns
    obtain ⟨hblank, hdigit, hother⟩ := hop c hc
    obtain ⟨left, hread, hleft⟩ := h.complete ht (follows_next hblanks hblank hdigit hother (u ++ rest))
    have htext : t ++ (blanks ++ c :: u) ++ rest = t ++ (blanks ++ c :: (u ++ rest)) := by simp
    rw [htext] at hturns ⊢
    simp only [List.length_append, List.length_cons] at hturns
    obtain ⟨n, rfl⟩ : ∃ n, turns = n + 1 := ⟨turns - 1, by omega⟩
    rw [hread, Option.bind_some]
    unfold operands
    simp only [hleft, whitespace_next hblanks hblank, hc, if_true]
    exact ih (by simp only [List.length_append]; omega)

theorem reads_chain (h : Reads operand Text others)
    (hop : ∀ c, isOperator c = true → isBlank c = false ∧ c.isDigit = false ∧ others c = false) :
    Reads (chain isOperator operand) (Chain isOperator Text) (fun c => others c || isOperator c) := by
  refine ⟨fun hrun => ?_, fun ht hrest => ⟨_, chain_complete h hop ht hrest le_rfl, ?_⟩⟩
  · obtain ⟨left, hread, hloop⟩ := Option.bind_eq_some_iff.1 hrun
    obtain ⟨t, gap, ht, hgap, rfl⟩ := h.sound hread
    obtain ⟨more, hmore, rfl | ⟨d, u, after, hd, hu, hafter, rfl⟩⟩ := operands_sound h hloop
    · exact ⟨t, gap ++ more, .one ht, List.forall_mem_append.2 ⟨hgap, hmore⟩, by simp⟩
    · exact ⟨_, after, .more ht (List.forall_mem_append.2 ⟨hgap, hmore⟩) hd hu, hafter, by simp⟩
  · exact List.dropWhile_idempotent ..

end Chains

theorem reads_expression {levels : Nat} (h : Reads (atom levels) (IsAtom levels) (fun _ => false)) :
    Reads (expression levels) (IsExpr levels) (fun c => isProduct c || isSum c) :=
  reads_chain (reads_chain h (fun _ hc => ⟨(product_plain hc).1, (product_plain hc).2.1, rfl⟩)) (fun _ => sum_plain)

theorem atom_of_whitespace {levels : Nat} {text : List Char} {c : Char} {rest : List Char}
    (h : whitespace text = c :: rest) : atom (levels + 1) text =
      if isSum c then atom levels rest
      else if c = '(' then
        (expression levels rest).bind (fun rest =>
          match whitespace rest with
          | ')' :: rest => some rest
          | _ => none)
      else if 1 ≤ ((c :: rest).takeWhile Char.isDigit).length ∧ ((c :: rest).takeWhile Char.isDigit).length ≤ 9 then
        some ((c :: rest).dropWhile Char.isDigit)
      else none := by
  simp only [atom, h]
  rfl

theorem reads_atom : ∀ levels, Reads (atom levels) (IsAtom levels) (fun _ => false)
  | 0 => ⟨nofun, fun ht => ht.elim⟩
  | levels + 1 => by
    have hinner := reads_atom levels
    have hexpr := reads_expression hinner
    refine ⟨fun {text rest} hrun => ?_, fun {t rest} ht hrest => ?_⟩
    · obtain ⟨blanks, hblanks, htext⟩ := exists_blank text
      cases hw : whitespace text with
      | nil =>
        simp only [atom, hw] at hrun
        cases hrun
      | cons c tail =>
        rw [hw] at htext
        rw [atom_of_whitespace hw] at hrun
        split_ifs at hrun with hsum hparen hdigits
        · obtain ⟨t, gap, ht, hgap, rfl⟩ := hinner.sound hrun
          exact ⟨_, gap, .sign hblanks hsum ht, hgap, by simpa using htext⟩
        · obtain ⟨left, hread, hclose⟩ := Option.bind_eq_some_iff.1 hrun
          obtain ⟨t, gap, ht, hgap, rfl⟩ := hexpr.sound hread
          obtain ⟨more, hmore, hleft⟩ := exists_blank left
          split at hclose
          · rename_i tail hclosed
            cases hclose
            rw [hclosed] at hleft
            refine ⟨_, [], .parens hblanks ht (List.forall_mem_append.2 ⟨hgap, hmore⟩), nofun, ?_⟩
            rw [htext, hparen, hleft]
            simp
          · cases hclose
        · refine ⟨_, [], .number hblanks (fun _ => List.mem_takeWhile_imp) hdigits.1 hdigits.2, nofun, ?_⟩
          rw [htext, ← Option.some.inj hrun]
          simp [List.takeWhile_append_dropWhile]
    · cases ht with
      | @sign blanks t c hblanks hsum ht =>
        rw [List.append_assoc, List.cons_append, atom_of_whitespace (whitespace_next hblanks (sum_plain hsum).1 _),
          if_pos hsum]
        exact hinner.complete ht hrest
      | @parens blanks t after hblanks ht hafter =>
        have htext : blanks ++ '(' :: (t ++ (after ++ [')'])) ++ rest =
            blanks ++ '(' :: (t ++ (after ++ ')' :: rest)) := by
          simp
        obtain ⟨left, hread, hleft⟩ := hexpr.complete ht (follows_next hafter (c := ')') rfl rfl rfl rest)
        rw [whitespace_next hafter rfl] at hleft
        rw [htext, atom_of_whitespace (whitespace_next hblanks rfl _), if_neg (by decide), if_pos rfl, hread]
        exact ⟨rest, by simp only [Option.bind_some, hleft], rfl⟩
      | @number blanks digits hblanks hdigits hpos hlen =>
        obtain ⟨d, ds, rfl⟩ := List.exists_cons_of_ne_nil (List.length_pos_iff.1 hpos)
        obtain ⟨hblank, hsum, -, hparen⟩ := digit_plain (hdigits d (List.mem_cons_self ..))
        have hnone : rest.takeWhile Char.isDigit = [] ∧ rest.dropWhile Char.isDigit = rest := by
          cases rest with
          | nil => exact ⟨rfl, rfl⟩
          | cons c rest => simp [hrest.digit c rfl]
        have htake : (d :: (ds ++ rest)).takeWhile Char.isDigit = d :: ds := by
          rw [← List.cons_append, List.takeWhile_append_of_pos hdigits, hnone.1, List.append_nil]
        have hdrop : (d :: (ds ++ rest)).dropWhile Char.isDigit = rest := by
          rw [← List.cons_append, List.dropWhile_append_of_pos hdigits, hnone.2]
        rw [List.append_assoc, List.cons_append, atom_of_whitespace (whitespace_next hblanks hblank _), htake, hdrop]
        exact ⟨rest, by rw [if_neg (by simp [hsum]), if_neg hparen, if_pos ⟨hpos, hlen⟩], rfl⟩

/-! ## Accepted scripts -/

/-- One character of arithmetic, after an operand or not: a parenthesis that opens after an operand would be a call. -/
def plainStep (operandBefore : Bool) (c : Char) : Option Bool :=
  if isBlank c then some operandBefore
  else if isSum c || isProduct c then some false
  else if c = '(' then (if operandBefore then none else some false)
  else if c.isDigit || c = ')' then some true
  else none

/-- Blanks, digits, operators and parentheses, with no call among them. -/
def Plain (text : List Char) : Prop := text.foldlM plainStep false = some true

theorem foldlM_blank {blanks : List Char} (h : Blank blanks) (b : Bool) : blanks.foldlM plainStep b = some b := by
  induction blanks with
  | nil => rfl
  | cons c blanks ih =>
    rw [List.foldlM_cons, plainStep, if_pos (h c (List.mem_cons_self ..))]
    exact ih (fun c hc => h c (List.mem_cons_of_mem _ hc))

theorem plain_chain {isOperator : Char → Bool} {Text : List Char → Prop}
    (hop : ∀ c, isOperator c = true → ∀ b, plainStep b c = some false) (hplain : ∀ t, Text t → Plain t) {t : List Char}
    (h : Chain isOperator Text t) : Plain t := by
  unfold Plain at hplain ⊢
  induction h with
  | one ht => exact hplain _ ht
  | more ht hblanks hc _ ih => simp [List.foldlM_append, hplain _ ht, foldlM_blank hblanks, hop _ hc, ih]

theorem plain_chains {Text : List Char → Prop} (hplain : ∀ t, Text t → Plain t) {t : List Char}
    (h : Chain isSum (Chain isProduct Text) t) : Plain t := by
  refine plain_chain (fun c hc b => ?_) (fun _ => plain_chain (fun c hc b => ?_) hplain) h
  · simp [plainStep, hc, sum_plain hc]
  · simp [plainStep, hc, product_plain hc]

theorem plain_atom : ∀ {levels : Nat} {t : List Char}, IsAtom levels t → Plain t
  | levels + 1, t, h => by
    cases h with
    | sign hblanks hc ht =>
      have hinner : _ = _ := plain_atom ht
      simp [Plain, List.foldlM_append, foldlM_blank hblanks, plainStep, hc, sum_plain hc, hinner]
    | parens hblanks ht hafter =>
      have hinner : _ = _ := plain_chains (fun _ => plain_atom) ht
      have hopen : plainStep false '(' = some false := rfl
      have hclose : plainStep true ')' = some true := rfl
      simp [Plain, List.foldlM_append, foldlM_blank hblanks, foldlM_blank hafter, hopen, hclose, hinner]
    | @number blanks digits hblanks hdigits hpos _ =>
      have hdigit : ∀ d ∈ digits, ∀ b, plainStep b d = some true := fun d hd b => by
        simp [plainStep, digit_plain (hdigits d hd), hdigits d hd]
      have hrun : ∀ {ds : List Char}, ds ⊆ digits → ds.foldlM plainStep true = some true := by
        intro ds hds
        induction ds with
        | nil => rfl
        | cons d ds ih =>
          obtain ⟨hd, hds⟩ := List.cons_subset.1 hds
          simp [hdigit d hd, ih hds]
      obtain ⟨d, ds, rfl⟩ := List.exists_cons_of_ne_nil (List.length_pos_iff.1 hpos)
      simp [Plain, List.foldlM_append, foldlM_blank hblanks, hdigit d, hrun (List.subset_cons_self ..)]

/-- **The exemption accepts exactly constant arithmetic.** -/
theorem safe_inline_expression_iff (executable : String) (arguments : List String) :
    safeInlineExpression executable arguments = true ↔
      ∃ flag script body blanks, arguments = [flag, script] ∧ flag = flagExpected executable ∧
        script.utf8ByteSize ≤ 256 ∧
        Lib.trim script.toList = opening executable ++ ((body ++ blanks) ++ [')']) ∧ IsExpr 8 body ∧ Blank blanks ∧
        Plain (body ++ blanks) := by
  have hreads := reads_expression (reads_atom 8)
  constructor
  · intro h
    unfold safeInlineExpression at h
    split at h
    · rename_i flag script
      simp only [Bool.if_false_left, Bool.and_eq_true, Bool.not_eq_true', decide_eq_false_iff_not, not_or,
        not_not, not_lt, Bool.not_eq_false, Option.any_eq_true, List.isEmpty_iff] at h
      obtain ⟨⟨hflag, hsize⟩, hopening, hclosing, rest, hrest, hend⟩ := h
      obtain ⟨value, hvalue⟩ := List.isPrefixOf_iff_prefix.1 hopening
      rw [← hvalue, List.drop_left] at hclosing hrest
      obtain ⟨body, gap, hbody, hgap, hread⟩ := hreads.sound hrest
      obtain ⟨last, hlast, hleft⟩ := exists_blank rest
      rw [hend, List.append_nil] at hleft
      have hblanks : Blank (gap ++ rest) := List.forall_mem_append.2 ⟨hgap, hleft ▸ hlast⟩
      refine ⟨flag, script, body, gap ++ rest, rfl, hflag, hsize, ?_, hbody, hblanks, ?_⟩
      · rw [← hvalue, ← hread, List.dropLast_append_getLast? _ hclosing]
      · have hplain : _ = _ := plain_chains (fun _ => plain_atom) hbody
        rw [Plain, List.foldlM_append, hplain]
        exact foldlM_blank hblanks true
    · cases h
  · rintro ⟨flag, script, body, blanks, rfl, hflag, hsize, htext, hbody, hblanks, -⟩
    have hnone : whitespace blanks = [] := List.dropWhile_eq_nil_iff.2 hblanks
    have hfollows : Follows (fun c => isProduct c || isSum c) blanks :=
      ⟨fun c hc => isDigit_of_isBlank (hblanks c (List.mem_of_mem_head? hc)), by simp [hnone]⟩
    obtain ⟨left, hread, hleft⟩ := hreads.complete hbody hfollows
    simp [safeInlineExpression, hflag, hsize, htext, hread, hleft, hnone, List.isPrefixOf_iff_prefix]

end PureExpression
end Guard
