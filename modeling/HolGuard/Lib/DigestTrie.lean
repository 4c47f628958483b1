import HolGuard.Lib.Faulty
/-!
# A trie of nodes named by their digests

A path-compressed trie whose nodes are files named by the digest of their contents.  A leaf carries a whole key, a
branch the letters its keys share and one child for each next letter.  Nothing is overwritten: an insertion writes the
nodes from the new leaf up to a new root, so an old root keeps naming the old trie.

`Looks` is what a search finds.  The search checks every node it reads, so the facts below hold of any set of files:
`insert_finds` for the inserted key, `insert_keeps` for every search that ended before.
-/
namespace Lib
namespace DigestTrie

open Faulty (after_bind after_fail after_lift after_pure after_write)

variable {A D C : Type}

inductive Node (A D C : Type) where
  | leaf (key : List A) (content : C)
  | branch (letters : List A) (children : Finmap (fun _ : A => D))

/-- The letters every key under the node starts with. -/
def Node.letters : Node A D C → List A
  | .leaf key _ => key
  | .branch letters _ => letters

abbrev Files (A D C : Type) := D → Option (Node A D C)

/-- What a trie is built over: the length of the keys, the digest of a node, what a leaf must satisfy, how many children
a branch may have, and the answers on failure. -/
structure Scheme (A D C : Type) where
  width : Nat
  digest : Node A D C → D
  validLeaf : List A → C → Bool
  length_of_validLeaf : ∀ key content, validLeaf key content = true → key.length = width
  fanout : Nat
  invalid : String
  unavailable : String
  duplicate : String

section Model

variable [DecidableEq A] [DecidableEq D] (t : Scheme A D C)

def Scheme.valid : Node A D C → Bool
  | .leaf key content => t.validLeaf key content
  | .branch letters children =>
    decide (letters.length < t.width) && decide (2 ≤ children.keys.card) && decide (children.keys.card ≤ t.fanout)

/-- A node that is there, has the digest it is named by, and is well formed. -/
def Scheme.readNode (files : Files A D C) (d : D) : Except String { n : Node A D C // t.valid n = true } :=
  match files d with
  | none => .error t.unavailable
  | some n =>
    if t.digest n = d then
      if h : t.valid n = true then .ok ⟨n, h⟩ else .error t.invalid
    else .error t.invalid

/-- A node that is there already is only checked. -/
def Scheme.writeNode (n : Node A D C) : Faulty (Files A D C) D :=
  if t.valid n then do
    let files ← Faulty.get
    match files (t.digest n) with
    | some _ => do
      let _ ← Faulty.lift (t.readNode files (t.digest n))
      pure (t.digest n)
    | none => do
      Faulty.write (fun files => Function.update files (t.digest n) (some n)) t.unavailable
      pure (t.digest n)
  else Faulty.fail t.invalid

/-- How many letters two words share at their start. -/
def common : List A → List A → Nat
  | a :: as, b :: bs => if a = b then common as bs + 1 else 0
  | _, _ => 0

theorem common_le_right : ∀ as bs : List A, common as bs ≤ bs.length
  | [], _ => Nat.zero_le _
  | _ :: _, [] => Nat.zero_le _
  | a :: as, b :: bs => by
    simp only [common, List.length_cons]
    split
    · exact Nat.succ_le_succ (common_le_right as bs)
    · exact Nat.zero_le _

/-- The search, one node a turn. -/
def Scheme.lookupFrom (files : Files A D C) (wanted : List A) : Nat → D → List A → Except String (Option C)
  | 0, _, _ => .error t.invalid
  | turns + 1, d, expected => do
    let node ← t.readNode files d
    if !expected.isPrefixOf node.1.letters then .error t.invalid
    else
      match node.1 with
      | .leaf key content => .ok (if key = wanted then some content else none)
      | .branch letters children =>
        if !letters.isPrefixOf wanted then .ok none
        else
          match wanted[letters.length]? with
          | none => .error t.invalid
          | some edge =>
            match children.lookup edge with
            | none => .ok none
            | some child => lookupFrom files wanted turns child (letters ++ [edge])

def Scheme.lookup (files : Files A D C) (root : D) (wanted : List A) : Except String (Option C) :=
  t.lookupFrom files wanted (t.width + 1) root []

set_option linter.unusedVariables false in
/-- The insertion of a leaf under a node that shares at least `minimum` letters with it.  The two letters at which a
word leaves the other are there because both are longer than what they share. -/
def Scheme.insertNode (wanted : List A) (content : C) (minimum : Nat) (root : Option D) : Faulty (Files A D C) D :=
  match root with
  | none => t.writeNode (.leaf wanted content)
  | some root => do
    let files ← Faulty.get
    let node ← Faulty.lift (t.readNode files root)
    let shared := common wanted node.1.letters
    if hminimum : shared < minimum then Faulty.fail t.invalid
    else if hshared : shared < node.1.letters.length then do
      let leaf ← t.writeNode (.leaf wanted content)
      match node.1.letters[shared]?, wanted[shared]? with
      | some here, some there =>
        t.writeNode (.branch (wanted.take shared) ((Finmap.singleton here root).insert there leaf))
      | _, _ => Faulty.fail t.invalid
    else
      match hnode : node.1 with
      | .leaf _ _ => Faulty.fail t.duplicate
      | .branch letters children =>
        match wanted[letters.length]? with
        | none => Faulty.fail t.invalid
        | some edge => do
          let next ← insertNode wanted content (letters.length + 1) (children.lookup edge)
          t.writeNode (.branch letters (children.insert edge next))
termination_by t.width - minimum
decreasing_by
  have hvalid := node.2
  have := common_le_right wanted node.1.letters
  rw [hnode] at hvalid hshared this
  simp only [Scheme.valid, Bool.and_eq_true, decide_eq_true_eq, Node.letters] at hvalid hshared this
  simp only [shared, hnode, Node.letters] at hminimum
  omega

end Model

section Words

theorem concat_isPrefix {p k : List A} {a : A} (h : p <+: k) (ha : k[p.length]? = some a) : p ++ [a] <+: k := by
  obtain ⟨rest, rfl⟩ := h
  cases rest with
  | nil => simp at ha
  | cons b rest =>
    simp only [List.getElem?_append_right (Nat.le_refl _), Nat.sub_self, List.getElem?_cons_zero,
      Option.some.injEq] at ha
    subst ha
    exact ⟨rest, by simp⟩

theorem getElem?_of_concat_isPrefix {p k : List A} {a : A} (h : p ++ [a] <+: k) : k[p.length]? = some a := by
  obtain ⟨rest, rfl⟩ := h
  simp

theorem next_letter {p k : List A} (hon : p <+: k) (hlt : p.length < k.length) : ∃ a, p ++ [a] <+: k :=
  ⟨_, concat_isPrefix hon (List.getElem?_eq_getElem hlt)⟩

theorem take_next {p k : List A} {a : A} (h : p ++ [a] <+: k) : k.take (p.length + 1) = p ++ [a] := by
  rw [List.prefix_iff_eq_take.1 h]
  simp

variable [DecidableEq A]

theorem take_common : ∀ as bs : List A, as.take (common as bs) = bs.take (common as bs)
  | [], _ => by simp [common]
  | _ :: _, [] => by simp [common]
  | a :: as, b :: bs => by
    unfold common
    split
    · rename_i hab
      simp [hab, take_common as bs]
    · rfl

theorem ne_of_common : ∀ {as bs : List A} {a b : A}, as[common as bs]? = some a → bs[common as bs]? = some b → a ≠ b
  | [], _, _, _, h, _ => by simp at h
  | _ :: _, [], _, _, _, h => by simp at h
  | x :: as, y :: bs, a, b, ha, hb => by
    unfold common at ha hb
    split at ha
    · rename_i hxy
      simp only [hxy, if_true, List.getElem?_cons_succ] at ha hb
      exact ne_of_common ha hb
    · rename_i hxy
      simp only [hxy, if_false, List.getElem?_cons_zero, Option.some.injEq] at ha hb
      subst ha hb
      exact hxy

/-- Where two words part. -/
theorem part_of_common {key letters : List A} {here there : A} (hhere : letters[common key letters]? = some here)
    (hthere : key[common key letters]? = some there) :
    there ≠ here ∧ key.take (common key letters) ++ [there] <+: key ∧
      key.take (common key letters) ++ [here] <+: letters := by
  have hlen : (key.take (common key letters)).length = common key letters := by
    have := (List.getElem?_eq_some_iff.1 hthere).1
    rw [List.length_take]
    omega
  refine ⟨ne_of_common hthere hhere, concat_isPrefix (List.take_prefix _ _) (hlen.symm ▸ hthere), ?_⟩
  refine concat_isPrefix ?_ (hlen.symm ▸ hhere)
  rw [take_common]
  exact List.take_prefix _ _

theorem prefix_of_common {key letters : List A} (h : ¬ common key letters < letters.length) : letters <+: key := by
  have htake := take_common key letters
  rw [Nat.le_antisymm (common_le_right key letters) (Nat.le_of_not_lt h), List.take_length] at htake
  exact htake ▸ List.take_prefix _ _

end Words

variable {files : Files A D C} {d : D} {n : Node A D C} {f f' : Files A D C}
  {wanted expected : List A} {found : Option C} {root : D}

section Search

variable {t : Scheme A D C}

theorem length_lt_of_valid {letters : List A} {children : Finmap (fun _ : A => D)}
    (h : t.valid (.branch letters children) = true) : letters.length < t.width := by
  simp only [Scheme.valid, Bool.and_eq_true, decide_eq_true_eq] at h
  exact h.1.1

/-- The node a digest names. -/
def Reads (t : Scheme A D C) (files : Files A D C) (d : D) (n : Node A D C) : Prop :=
  files d = some n ∧ t.digest n = d ∧ t.valid n = true

theorem readNode_eq_ok [DecidableEq D] {n : { n : Node A D C // t.valid n = true }} :
    t.readNode files d = .ok n ↔ Reads t files d n.1 := by
  unfold Scheme.readNode Reads
  cases hf : files d with
  | none => simp
  | some m =>
    by_cases hd : t.digest m = d <;> by_cases hv : t.valid m = true <;> simp [hd, hv, Subtype.ext_iff]
    · rintro rfl
      exact ⟨hd, hv⟩
    · rintro rfl
      exact absurd n.2 hv
    · rintro rfl h
      exact absurd h hd
    · rintro rfl h
      exact absurd h hd

theorem Reads.unique {m : Node A D C} (hn : Reads t files d n) (hm : Reads t files d m) : n = m :=
  Option.some.inj (hn.1.symm.trans hm.1)

/-- No file is lost or overwritten. -/
def Grown (f f' : Files A D C) : Prop := ∀ d n, f d = some n → f' d = some n

theorem Grown.refl (f : Files A D C) : Grown f f := fun _ _ h => h

theorem Grown.trans {g h : Files A D C} (hfg : Grown f g) (hgh : Grown g h) : Grown f h :=
  fun d n hn => hgh d n (hfg d n hn)

theorem Reads.mono (hg : Grown f f') (h : Reads t f d n) : Reads t f' d n :=
  ⟨hg d n h.1, h.2⟩

variable [DecidableEq A]

/-- **What a search finds** under a digest: the content of the key's leaf, or nothing. -/
inductive Looks (t : Scheme A D C) (files : Files A D C) (wanted : List A) : D → List A → Option C → Prop
  | leaf {d : D} {expected key : List A} {content : C} (read : Reads t files d (.leaf key content))
      (start : expected <+: key) : Looks t files wanted d expected (if key = wanted then some content else none)
  | away {d : D} {expected letters : List A} {children : Finmap (fun _ : A => D)}
      (read : Reads t files d (.branch letters children)) (start : expected <+: letters)
      (off : ¬ letters <+: wanted) : Looks t files wanted d expected none
  | missing {d : D} {expected letters : List A} {children : Finmap (fun _ : A => D)} {edge : A}
      (read : Reads t files d (.branch letters children)) (start : expected <+: letters)
      (next : letters ++ [edge] <+: wanted) (gap : children.lookup edge = none) :
      Looks t files wanted d expected none
  | down {d : D} {expected letters : List A} {children : Finmap (fun _ : A => D)} {edge : A} {child : D}
      {found : Option C} (read : Reads t files d (.branch letters children)) (start : expected <+: letters)
      (next : letters ++ [edge] <+: wanted) (step : children.lookup edge = some child)
      (rest : Looks t files wanted child (letters ++ [edge]) found) : Looks t files wanted d expected found

theorem Looks.mono (hg : Grown f f') (h : Looks t f wanted d expected found) :
    Looks t f' wanted d expected found := by
  induction h with
  | leaf read start => exact .leaf (read.mono hg) start
  | away read start off => exact .away (read.mono hg) start off
  | missing read start next child => exact .missing (read.mono hg) start next child
  | down read start next child _ ih => exact .down (read.mono hg) start next child ih

/-- A search may start with any letters the node has. -/
theorem Looks.of_start {expected' : List A} (h : Looks t files wanted d expected found)
    (hn : Reads t files d n) (hstart : expected' <+: n.letters) :
    Looks t files wanted d expected' found := by
  cases h with
  | leaf read start =>
    obtain rfl := hn.unique read
    exact .leaf read hstart
  | away read start off =>
    obtain rfl := hn.unique read
    exact .away read hstart off
  | missing read start next child =>
    obtain rfl := hn.unique read
    exact .missing read hstart next child
  | down read start next child rest =>
    obtain rfl := hn.unique read
    exact .down read hstart next child rest

/-- A search whose word leaves the node's letters finds nothing there. -/
theorem Looks.eq_none_of_off (h : Looks t files wanted d expected found) (hn : Reads t files d n)
    (hoff : ¬ n.letters <+: wanted) : found = none := by
  cases h with
  | leaf read start =>
    obtain rfl := hn.unique read
    refine if_neg fun heq => hoff ?_
    rw [← heq]
    exact List.prefix_rfl
  | away => rfl
  | missing read start next child =>
    obtain rfl := hn.unique read
    exact absurd ((List.prefix_append _ _).trans next) hoff
  | down read start next child rest =>
    obtain rfl := hn.unique read
    exact absurd ((List.prefix_append _ _).trans next) hoff

theorem Looks.validLeaf (h : Looks t files wanted d expected found) :
    ∀ content, found = some content → t.validLeaf wanted content = true := by
  induction h with
  | leaf read start =>
    intro content hfound
    split at hfound
    · rename_i hkey
      obtain rfl := Option.some.inj hfound
      exact hkey ▸ read.2.2
    · cases hfound
  | away => nofun
  | missing => nofun
  | down _ _ _ _ _ ih => exact ih

variable [DecidableEq D]

theorem looks_of_lookupFrom :
    ∀ {turns : Nat} {d : D} {expected : List A} {found : Option C},
      t.lookupFrom files wanted turns d expected = .ok found → Looks t files wanted d expected found
  | 0, _, _, _, h => by cases h
  | turns + 1, d, expected, found, h => by
    unfold Scheme.lookupFrom at h
    cases hread : t.readNode files d with
    | error e =>
      rw [hread] at h
      cases h
    | ok node =>
      obtain ⟨node, hvalid⟩ := node
      have hreads : Reads t files d node := readNode_eq_ok.1 hread
      simp only [hread, bind, Except.bind] at h
      simp only [Bool.not_eq_true', ← Bool.not_eq_true, List.isPrefixOf_iff_prefix] at h
      split at h
      · cases h
      rename_i hstart
      rw [not_not] at hstart
      cases node with
      | leaf key content =>
        obtain rfl := Except.ok.inj h
        exact .leaf hreads hstart
      | branch letters children =>
        simp only at h
        repeat' split at h
        any_goals cases h
        · rename_i hoff
          exact .away hreads hstart hoff
        · rename_i hon _ edge hedge _ hchild
          exact .missing hreads hstart (concat_isPrefix (not_not.1 hon) hedge) hchild
        · rename_i hon _ edge hedge _ child hchild
          exact .down hreads hstart (concat_isPrefix (not_not.1 hon) hedge) hchild (looks_of_lookupFrom h)

/-- **The search has turns enough**: the letters it expects grow with every node. -/
theorem lookupFrom_of_looks (h : Looks t files wanted d expected found) :
    ∀ {turns : Nat}, t.width + 1 ≤ turns + expected.length →
      t.lookupFrom files wanted turns d expected = .ok found := by
  have hturns : ∀ {n : Node A D C} {d : D} {expected : List A} {turns : Nat}, Reads t files d n →
      expected <+: n.letters → t.width + 1 ≤ turns + expected.length → ∃ more, turns = more + 1 ∧
        (∀ letters children, n = .branch letters children → t.width + 1 ≤ more + (letters.length + 1)) := by
    intro n d expected turns hread hstart hle
    have hlen := hstart.length_le
    have hvalid := hread.2.2
    cases n with
    | leaf key content =>
      have := t.length_of_validLeaf key content hvalid
      simp only [Node.letters] at hlen
      exact ⟨turns - 1, by omega, fun _ _ h => by cases h⟩
    | branch letters children =>
      simp only [Scheme.valid, Bool.and_eq_true, decide_eq_true_eq] at hvalid
      simp only [Node.letters] at hlen
      refine ⟨turns - 1, by omega, fun _ _ h => ?_⟩
      cases h
      omega
  induction h with
  | leaf read start =>
    intro turns hle
    obtain ⟨more, rfl, -⟩ := hturns read start hle
    unfold Scheme.lookupFrom
    rw [(readNode_eq_ok (n := ⟨_, read.2.2⟩)).2 read]
    simp [bind, Except.bind, Node.letters, List.isPrefixOf_iff_prefix.2 start]
  | away read start off =>
    intro turns hle
    obtain ⟨more, rfl, -⟩ := hturns read start hle
    unfold Scheme.lookupFrom
    rw [(readNode_eq_ok (n := ⟨_, read.2.2⟩)).2 read]
    simp [bind, Except.bind, Node.letters, List.isPrefixOf_iff_prefix.2 start, off]
  | missing read start next child =>
    intro turns hle
    obtain ⟨more, rfl, -⟩ := hturns read start hle
    unfold Scheme.lookupFrom
    rw [(readNode_eq_ok (n := ⟨_, read.2.2⟩)).2 read]
    simp [bind, Except.bind, Node.letters, List.isPrefixOf_iff_prefix.2 start,
      List.isPrefixOf_iff_prefix.2 ((List.prefix_append _ _).trans next), getElem?_of_concat_isPrefix next, child]
  | down read start next child rest ih =>
    intro turns hle
    obtain ⟨more, rfl, hmore⟩ := hturns read start hle
    unfold Scheme.lookupFrom
    rw [(readNode_eq_ok (n := ⟨_, read.2.2⟩)).2 read]
    simp only [bind, Except.bind, Node.letters, List.isPrefixOf_iff_prefix.2 start, Bool.not_true, Bool.false_eq_true,
      if_false, List.isPrefixOf_iff_prefix.2 ((List.prefix_append _ _).trans next), getElem?_of_concat_isPrefix next,
      child]
    exact ih (by simpa using hmore _ _ rfl)

theorem lookup_eq_ok :
    t.lookup files root wanted = .ok found ↔ Looks t files wanted root [] found :=
  ⟨looks_of_lookupFrom, fun h => lookupFrom_of_looks h (by simp)⟩

end Search

section Insertion

variable {t : Scheme A D C}

theorem grown_update [DecidableEq D] (h : f d = none) : Grown f (Function.update f d (some n)) := by
  intro e m hm
  by_cases he : e = d
  · rw [he, h] at hm
    cases hm
  · rwa [Function.update_of_ne he]

/-- **A write only adds the node**, and what it answers names it. -/
theorem runs_writeNode [DecidableEq D] {r : Except String D} (h : Faulty.Runs (t.writeNode n) f r f') :
    Grown f f' ∧ ∀ d, r = .ok d → Function.Injective t.digest → d = t.digest n ∧ Reads t f' d n := by
  unfold Scheme.writeNode at h
  split at h
  · rename_i hvalid
    replace h := Faulty.runs_get_bind h
    split at h
    · refine after_lift h (fun _ _ => ⟨.refl _, nofun⟩) fun node hread h => ?_
      refine after_pure h ⟨.refl _, fun d hd hinj => ?_⟩
      cases hd
      have hreads := readNode_eq_ok.1 hread
      exact ⟨rfl, hinj hreads.2.1 ▸ hreads⟩
    · rename_i hnone
      have hgrown : Grown f (Function.update f (t.digest n) (some n)) := grown_update hnone
      refine after_write h ⟨.refl _, nofun⟩ ⟨hgrown, nofun⟩ fun h => after_pure h ⟨hgrown, fun d hd _ => ?_⟩
      cases hd
      exact ⟨rfl, Function.update_self _ _ _, rfl, hvalid⟩
  · exact after_fail h ⟨.refl _, nofun⟩

variable [DecidableEq A]

/-- What a search under a place that may be empty finds. -/
def LooksAt (t : Scheme A D C) (files : Files A D C) (wanted : List A) (expected : List A) (found : Option C) :
    Option D → Prop
  | none => found = none
  | some d => Looks t files wanted d expected found

/-- **What an insertion does** below a place where the letters `expected` are known: the new key was not there and is
found, and every other search that ended still finds what it found. -/
structure Inserted (t : Scheme A D C) (f f' : Files A D C) (key : List A) (content : C) (expected : List A)
    (root : Option D) (d : D) : Prop where
  fresh : ∀ result, LooksAt t f key expected result root → result = none
  found : Looks t f' key d expected (some content)
  kept : ∀ other, other ≠ key → other.length = t.width → ∀ result, LooksAt t f other expected result root →
    Looks t f' other d expected result

variable {other : List A}

section Cases

variable {f f' : Files A D C} {key : List A} {content : C}

theorem looks_own_leaf (hd : Reads t f d (.leaf key content)) (hstart : expected <+: key) :
    Looks t f key d expected (some content) := by
  have h : Looks t f key d expected (if key = key then some content else none) := .leaf hd hstart
  simpa using h

theorem looks_other_leaf (hd : Reads t f d (.leaf key content)) (hstart : expected <+: key)
    (hne : other ≠ key) : Looks t f other d expected none := by
  have h : Looks t f other d expected (if key = other then some content else none) := .leaf hd hstart
  rwa [if_neg fun he => hne he.symm] at h

theorem inserted_leaf (hd : Reads t f' d (.leaf key content)) (hstart : expected <+: key) :
    Inserted t f f' key content expected none d where
  fresh _ hresult := hresult
  found := looks_own_leaf hd hstart
  kept other hne _ result hresult := by
    have hnone : result = none := hresult
    rw [hnone]
    exact looks_other_leaf hd hstart hne

/-- A new branch above a node whose letters the key leaves. -/
theorem inserted_split {leaf : D} {node : Node A D C} {here there : A} (hgrown : Grown f f')
    (hnode : Reads t f root node) (hleaf : Reads t f' leaf (.leaf key content))
    (hhere : node.letters[common key node.letters]? = some here) (hthere : key[common key node.letters]? = some there)
    (hd : Reads t f' d (.branch (key.take (common key node.letters))
      ((Finmap.singleton here root).insert there leaf)))
    (hstart : expected <+: key.take (common key node.letters)) :
    Inserted t f f' key content expected (some root) d := by
  obtain ⟨hne, hkeynext, hnodenext⟩ := part_of_common hhere hthere
  generalize key.take (common key node.letters) = q at hd hstart hkeynext hnodenext
  have hvalid : q.length < t.width := length_lt_of_valid hd.2.2
  have hleft : ¬ node.letters <+: key := by
    intro hpre
    have hboth := getElem?_of_concat_isPrefix (hnodenext.trans hpre)
    rw [getElem?_of_concat_isPrefix hkeynext] at hboth
    exact hne (Option.some.inj hboth)
  refine ⟨fun result hresult => Looks.eq_none_of_off hresult hnode hleft,
    .down hd hstart hkeynext (Finmap.lookup_insert _) (looks_own_leaf hleaf hkeynext),
    fun other hother hwidth result hresult => ?_⟩
  have hlooks : Looks t f other root expected result := hresult
  by_cases hon : q <+: other
  · obtain ⟨a, ha⟩ := next_letter hon (by omega)
    -- a word that goes on with another letter than the node's leaves the node there
    have hleaves : a ≠ here → result = none := by
      intro hah
      refine hlooks.eq_none_of_off hnode fun hpre => hah ?_
      have hboth := getElem?_of_concat_isPrefix (hnodenext.trans hpre)
      rw [getElem?_of_concat_isPrefix ha] at hboth
      exact Option.some.inj hboth
    by_cases hat : a = there
    · subst hat
      rw [hleaves hne]
      exact .down hd hstart ha (Finmap.lookup_insert _) (looks_other_leaf hleaf hkeynext hother)
    · by_cases hah : a = here
      · subst hah
        refine .down hd hstart ha ?_ ((hlooks.mono hgrown).of_start (hnode.mono hgrown) hnodenext)
        rw [Finmap.lookup_insert_of_ne _ hat, Finmap.lookup_singleton_eq]
      · rw [hleaves hah]
        refine .missing hd hstart ha ?_
        rw [Finmap.lookup_insert_of_ne _ hat]
        simpa [Finmap.lookup_eq_none] using hah
  · rw [hlooks.eq_none_of_off hnode fun hpre => hon ((List.prefix_append _ _).trans (hnodenext.trans hpre))]
    exact .away hd hstart hon

/-- A search that passes a branch goes on at the child of its next letter. -/
theorem Looks.at_child {letters : List A} {children : Finmap (fun _ : A => D)} {a : A}
    {result : Option C} (h : Looks t f other root expected result)
    (hroot : Reads t f root (.branch letters children)) (ha : letters ++ [a] <+: other) :
    LooksAt t f other (letters ++ [a]) result (children.lookup a) := by
  have hletter := getElem?_of_concat_isPrefix ha
  cases h with
  | leaf read => cases hroot.unique read
  | away read _ off =>
    cases hroot.unique read
    exact absurd ((List.prefix_append _ _).trans ha) off
  | missing read _ next gap =>
    cases hroot.unique read
    obtain rfl := Option.some.inj ((getElem?_of_concat_isPrefix next).symm.trans hletter)
    rw [gap]
    rfl
  | down read _ next step rest =>
    cases hroot.unique read
    obtain rfl := Option.some.inj ((getElem?_of_concat_isPrefix next).symm.trans hletter)
    rw [step]
    exact rest

/-- A branch with one child replaced. -/
theorem inserted_branch {next : D} {letters : List A} {children : Finmap (fun _ : A => D)}
    {edge : A} {f₁ : Files A D C} (hroot : Reads t f root (.branch letters children))
    (hgrown : Grown f f') (hgrown₁ : Grown f₁ f') (hnext : letters ++ [edge] <+: key)
    (hinner : Inserted t f f₁ key content (letters ++ [edge]) (children.lookup edge) next)
    (hd : Reads t f' d (.branch letters (children.insert edge next)))
    (hstart : expected <+: letters) : Inserted t f f' key content expected (some root) d := by
  have hvalid : letters.length < t.width := length_lt_of_valid hd.2.2
  refine ⟨fun result hresult => hinner.fresh result (Looks.at_child hresult hroot hnext),
    .down hd hstart hnext (Finmap.lookup_insert _) (hinner.found.mono hgrown₁),
    fun other hother hwidth result hresult => ?_⟩
  have hlooks : Looks t f other root expected result := hresult
  by_cases hon : letters <+: other
  · obtain ⟨a, ha⟩ := next_letter hon (by omega)
    have hbelow := hlooks.at_child hroot ha
    by_cases hae : a = edge
    · subst hae
      exact .down hd hstart ha (Finmap.lookup_insert _) ((hinner.kept other hother hwidth result hbelow).mono hgrown₁)
    · have hsame : (children.insert edge next).lookup a = children.lookup a := Finmap.lookup_insert_of_ne _ hae
      cases hchild : children.lookup a with
      | none =>
        rw [hchild] at hbelow hsame
        obtain rfl : result = none := hbelow
        exact .missing hd hstart ha hsame
      | some child =>
        rw [hchild] at hbelow hsame
        exact .down hd hstart ha hsame (Looks.mono hgrown hbelow)
  · rw [hlooks.eq_none_of_off hroot hon]
    exact .away hd hstart hon

end Cases

variable [DecidableEq D] {content : C}

/-- **An insertion loses no file, and when it answers it has inserted the key.** -/
theorem runs_insertNode {key : List A} :
    ∀ {minimum : Nat} {root : Option D} {f f' : Files A D C} {r : Except String D}, minimum ≤ t.width →
      Faulty.Runs (t.insertNode key content minimum root) f r f' →
        Grown f f' ∧ ∀ d, r = .ok d → Function.Injective t.digest →
          Inserted t f f' key content (key.take minimum) root d := by
  intro minimum
  -- the room left below the known letters shrinks with every branch
  induction hroom : t.width - minimum using Nat.strong_induction_on generalizing minimum with
  | _ room ih =>
    intro root f f' r hle h
    unfold Scheme.insertNode at h
    cases root with
    | none =>
      obtain ⟨hgrown, hok⟩ := runs_writeNode h
      exact ⟨hgrown, fun d hd hinj => inserted_leaf (hok d hd hinj).2 (List.take_prefix _ _)⟩
    | some root =>
      refine after_lift (Faulty.runs_get_bind h) (fun _ _ => ⟨.refl _, nofun⟩) fun ⟨node, hvalid⟩ hread h => ?_
      have hnode : Reads t f root node := readNode_eq_ok.1 hread
      simp only at h
      split at h
      · exact after_fail h ⟨.refl _, nofun⟩
      rename_i hminimum
      have hstart : key.take minimum <+: key.take (common key node.letters) :=
        List.take_prefix_take_left (Nat.le_of_not_lt hminimum)
      have hletters : key.take minimum <+: node.letters := by
        rw [take_common] at hstart
        exact hstart.trans (List.take_prefix _ _)
      split at h
      · refine after_bind h (fun e f₁ hleaf => ⟨(runs_writeNode hleaf).1, nofun⟩) fun leaf f₁ hleaf h => ?_
        obtain ⟨hgrown₁, hok₁⟩ := runs_writeNode hleaf
        split at h
        · rename_i here there hhere hthere
          obtain ⟨hgrown₂, hok₂⟩ := runs_writeNode h
          refine ⟨hgrown₁.trans hgrown₂, fun d hd hinj => ?_⟩
          exact inserted_split (hgrown₁.trans hgrown₂) hnode ((hok₁ leaf rfl hinj).2.mono hgrown₂) hhere hthere
            (hok₂ d hd hinj).2 hstart
        · exact after_fail h ⟨hgrown₁, nofun⟩
      rename_i hshared
      split at h
      · exact after_fail h ⟨.refl _, nofun⟩
      rename_i letters children
      have hlen := common_le_right key letters
      simp only [Node.letters] at hshared hminimum hletters
      have hbound := length_lt_of_valid hvalid
      split at h
      · exact after_fail h ⟨.refl _, nofun⟩
      rename_i edge hedge
      have hnext : letters ++ [edge] <+: key := concat_isPrefix (prefix_of_common hshared) hedge
      refine after_bind h
        (fun e f₁ hinner => ⟨(ih _ (by omega) rfl (by omega) hinner).1, nofun⟩) fun next f₁ hinner h => ?_
      obtain ⟨hgrown₁, hok₁⟩ := ih _ (by omega) rfl (by omega) hinner
      obtain ⟨hgrown₂, hok₂⟩ := runs_writeNode h
      refine ⟨hgrown₁.trans hgrown₂, fun d hd hinj => ?_⟩
      have hinserted := hok₁ next rfl hinj
      rw [take_next hnext] at hinserted
      exact inserted_branch hnode (hgrown₁.trans hgrown₂) hgrown₂ hnext hinserted (hok₂ d hd hinj).2 hletters

/-- Searches for another key find under the new root what they found under the old one; no root finds nothing. -/
theorem Inserted.lookup_other {key : List A} {root : Option D}
    (h : Inserted t f f' key content [] root d) (hne : other ≠ key)
    (hwidth : other.length = t.width) (hfound : ∀ e, root = some e → t.lookup f e other = .ok found)
    (hnone : root = none → found = none) : t.lookup f' d other = .ok found := by
  refine lookup_eq_ok.2 (h.kept other hne hwidth found ?_)
  cases root with
  | none => exact hnone rfl
  | some e => exact lookup_eq_ok.1 (hfound e rfl)

theorem Inserted.lookup_key {key : List A} {root : Option D}
    (h : Inserted t f f' key content [] root d) : t.lookup f' d key = .ok (some content) :=
  lookup_eq_ok.2 h.found

theorem validLeaf_of_lookup (h : t.lookup files root wanted = .ok (some content)) :
    t.validLeaf wanted content = true :=
  (lookup_eq_ok.1 h).validLeaf content rfl

theorem lookup_mono (hg : Grown f f') (h : t.lookup f root wanted = .ok found) :
    t.lookup f' root wanted = .ok found :=
  lookup_eq_ok.2 ((lookup_eq_ok.1 h).mono hg)

theorem Inserted.lookup_fresh {key : List A} (h : Inserted t f f' key content [] (some root) d)
    (hfound : t.lookup f root key = .ok found) : found = none :=
  h.fresh found (lookup_eq_ok.1 hfound)

end Insertion
end DigestTrie
end Lib
