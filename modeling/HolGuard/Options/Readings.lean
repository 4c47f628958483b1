import HolGuard.Options.Agreement
/-!
# The readings of an argument list

What the two bounded searches of `command_option_parsing` decide, stated without a search.  A reading of an argument
list chooses, for every option of unknown shape, whether it takes a value; it yields the words that are not options, the
flags assigned on the way and what follows the terminator `--`.  A search for subcommands answers no exactly when no
reading starts with the path; a search for a flag answers yes exactly when every reading assigns it last to true; in
both cases within the budget of states.
-/
namespace Guard
namespace Options

open Lib (Visit SearchResult explore Reaches)
open Rust (subcommandVisit isOption)

/-! ## Readings -/

section Readings

variable (tables : CharTables) (optionsWithValues knownFlags : Finset String)

/-- The readings of the letters of a cluster of short options: how far it advances and the flags it sets.  An unknown
letter takes no value and the cluster goes on, or it takes the rest of the cluster, or the next argument. -/
inductive ClusterReads : List Char → Nat → List String → Prop
  | done : ClusterReads [] 1 []
  | value (c : Char) (cs : List Char) (hvalue : shortOption c ∈ optionsWithValues) :
      ClusterReads (c :: cs) (if cs.isEmpty then 2 else 1) []
  | flag {c : Char} {cs : List Char} {n : Nat} {flags : List String} (hvalue : shortOption c ∉ optionsWithValues)
      (hflag : shortOption c ∈ knownFlags) (hrest : ClusterReads cs n flags) :
      ClusterReads (c :: cs) n (shortOption c :: flags)
  | unknownFlag {c : Char} {cs : List Char} {n : Nat} {flags : List String} (hvalue : shortOption c ∉ optionsWithValues)
      (hflag : shortOption c ∉ knownFlags) (hrest : ClusterReads cs n flags) : ClusterReads (c :: cs) n flags
  | unknownValue {c : Char} {cs : List Char} (hvalue : shortOption c ∉ optionsWithValues)
      (hflag : shortOption c ∉ knownFlags) : ClusterReads (c :: cs) (if cs.isEmpty then 2 else 1) []

/-- The readings of one option: how far it advances and what it assigns, in order. -/
inductive OptionReads (argument : String) : Nat → List (String × Bool) → Prop
  | short {n : Nat} {flags : List String} (hshort : startsWith "--" argument = false)
      (hcluster : ClusterReads optionsWithValues knownFlags (argument.toList.drop 1) n flags) :
      OptionReads argument n (flags.map (fun flag => (flag, true)))
  | value {name : String} {value : Option String} (hlong : startsWith "--" argument = true)
      (hparts : Rust.partitionAssignment argument = (name, value)) (hvalue : name ∈ optionsWithValues) :
      OptionReads argument (if value.isNone then 2 else 1) [(argument, true), (name, true)]
  | flag {name : String} {value : Option String} (hlong : startsWith "--" argument = true)
      (hparts : Rust.partitionAssignment argument = (name, value)) (hvalue : name ∉ optionsWithValues)
      (hflag : name ∈ knownFlags) :
      OptionReads argument 1 [(argument, true), (name, Rust.longFlagAssignmentIsEnabled tables argument)]
  | unknown {name : String} {value : Option String} (arity : Bool) (hlong : startsWith "--" argument = true)
      (hparts : Rust.partitionAssignment argument = (name, value)) (hvalue : name ∉ optionsWithValues)
      (hflag : name ∉ knownFlags) (harity : arity = true → value = none) :
      OptionReads argument (if arity then 2 else 1) []

/-- The readings of an argument list: its words before the terminator, what is assigned, and what follows the
terminator. -/
inductive Reading : List String → List String → List (String × Bool) → Option (List String) → Prop
  | done : Reading [] [] [] none
  | terminator (rest : List String) : Reading ("--" :: rest) [] [] (some rest)
  | word {argument : String} {rest words : List String} {assigned : List (String × Bool)} {tail : Option (List String)}
      (hterminator : argument ≠ "--") (hoption : isOption argument = false)
      (hrest : Reading rest words assigned tail) : Reading (argument :: rest) (argument :: words) assigned tail
  | option {argument : String} {rest words : List String} {n : Nat} {here assigned : List (String × Bool)}
      {tail : Option (List String)} (hterminator : argument ≠ "--") (hoption : isOption argument = true)
      (hreads : OptionReads tables optionsWithValues knownFlags argument n here)
      (hrest : Reading ((argument :: rest).drop n) words assigned tail) :
      Reading (argument :: rest) words (here ++ assigned) tail

/-- Some reading starts with the path: its words do, or they are the first part of the path and what follows the
terminator starts with the rest of it. -/
def StartsWithPath (arguments subcommands : List String) : Prop :=
  ∃ words assigned tail, Reading tables optionsWithValues knownFlags arguments words assigned tail ∧
    (subcommands <+: words ∨ ∃ rest unmatched, tail = some rest ∧ subcommands = words ++ unmatched ∧ unmatched <+: rest)

/-- The last value a list of assignments gives a flag. -/
def lastAssignment (flag : String) (assigned : List (String × Bool)) : Option Bool :=
  ((assigned.filter (fun a => a.1 = flag)).getLast?).map Prod.snd

/-- Every reading assigns the flag last to true. -/
def AlwaysAssigned (arguments : List String) (flag : String) : Prop :=
  ∀ words assigned tail, Reading tables optionsWithValues knownFlags arguments words assigned tail →
    lastAssignment flag assigned = some true

/-- The pairs of an argument index and a number of matched subcommands that readings come to. -/
inductive PathState (arguments subcommands : List String) : Nat × Nat → Prop
  | start : PathState arguments subcommands (0, 0)
  | word {i j : Nat} {argument : String} (h : PathState arguments subcommands (i, j))
      (hargument : arguments[i]? = some argument) (hterminator : argument ≠ "--")
      (hoption : isOption argument = false) (hsubcommand : subcommands[j]? = some argument) :
      PathState arguments subcommands (i + 1, j + 1)
  | option {i j n : Nat} {argument : String} {here : List (String × Bool)} (h : PathState arguments subcommands (i, j))
      (hargument : arguments[i]? = some argument) (hterminator : argument ≠ "--")
      (hoption : isOption argument = true)
      (hreads : OptionReads tables optionsWithValues knownFlags argument n here) :
      PathState arguments subcommands (i + n, j)

/-- The pairs of an argument index and the last assignment of a flag that readings come to. -/
inductive FlagState (arguments : List String) (flag : String) : Nat × Option Bool → Prop
  | start : FlagState arguments flag (0, none)
  | word {i : Nat} {last : Option Bool} {argument : String} (h : FlagState arguments flag (i, last))
      (hargument : arguments[i]? = some argument) (hterminator : argument ≠ "--")
      (hoption : isOption argument = false) : FlagState arguments flag (i + 1, last)
  | option {i n : Nat} {last : Option Bool} {argument : String} {here : List (String × Bool)}
      (h : FlagState arguments flag (i, last)) (hargument : arguments[i]? = some argument)
      (hterminator : argument ≠ "--") (hoption : isOption argument = true)
      (hreads : OptionReads tables optionsWithValues knownFlags argument n here) :
      FlagState arguments flag (i + n, (lastAssignment flag here).or last)

end Readings

/-! ## The shapes are the readings -/

section Shapes

variable {tables : CharTables} {optionsWithValues knownFlags : Finset String}

theorem clusterReads_cons {c : Char} {cs : List Char} {n : Nat} {read : List String} :
    ClusterReads optionsWithValues knownFlags (c :: cs) n read ↔
      if shortOption c ∈ optionsWithValues then n = (if cs.isEmpty then 2 else 1) ∧ read = []
      else if shortOption c ∈ knownFlags then
        ∃ flags, ClusterReads optionsWithValues knownFlags cs n flags ∧ read = shortOption c :: flags
      else ClusterReads optionsWithValues knownFlags cs n read ∨ n = (if cs.isEmpty then 2 else 1) ∧ read = [] := by
  constructor
  · intro h
    cases h with
    | value _ _ hvalue => simp [hvalue]
    | flag hvalue hflag hrest | unknownFlag hvalue hflag hrest => simp [hvalue, hflag, hrest]
    | unknownValue hvalue hflag => simp [hvalue, hflag]
  · split
    · rintro ⟨rfl, rfl⟩
      exact .value c cs ‹_›
    split
    · rintro ⟨flags, hrest, rfl⟩
      exact .flag ‹_› ‹_› hrest
    · rintro (hrest | ⟨rfl, rfl⟩)
      · exact .unknownFlag ‹_› ‹_› hrest
      · exact .unknownValue ‹_› ‹_›

theorem clusterReads_nil {n : Nat} {read : List String} :
    ClusterReads optionsWithValues knownFlags [] n read ↔ n = 1 ∧ read = [] := by
  constructor
  · rintro ⟨⟩
    exact ⟨rfl, rfl⟩
  · rintro ⟨rfl, rfl⟩
    exact .done

/-- **The transitions of a cluster are its readings**, on top of the flags read so far. -/
theorem mem_shortCluster (t : OptionTransition) : ∀ (cs : List Char) (transitions : Finset OptionTransition)
    (flags : Finset String) (fullyKnown : Bool),
    t ∈ (Rust.shortCluster optionsWithValues knownFlags cs transitions flags fullyKnown).1 ↔
      t ∈ transitions ∨ ∃ n read, ClusterReads optionsWithValues knownFlags cs n read ∧
        t = optionWithFlags n (flags ∪ read.toFinset)
  | [], transitions, flags, fullyKnown => by simp [Rust.shortCluster, clusterReads_nil, or_comm]
  | c :: cs, transitions, flags, fullyKnown => by
    simp only [Rust.shortCluster, clusterReads_cons]
    split
    · simp [or_comm]
    split
    · simp [mem_shortCluster t cs]
    · -- an unknown letter that takes a value ends the cluster here, one that does not leaves it to the rest
      rw [mem_shortCluster t cs]
      cases cs with
      | nil => simp +contextual [clusterReads_nil, or_and_right, exists_or, or_assoc, or_comm]
      | cons d ds => simp [or_and_right, exists_or, or_assoc, or_comm]

/-- The readings of a long option, by what is known of its name. -/
theorem optionReads_long {argument name : String} {value : Option String} {n : Nat} {here : List (String × Bool)}
    (hlong : startsWith "--" argument = true) (hparts : Rust.partitionAssignment argument = (name, value)) :
    OptionReads tables optionsWithValues knownFlags argument n here ↔
      if name ∈ optionsWithValues then n = (if value.isNone then 2 else 1) ∧ here = [(argument, true), (name, true)]
      else if name ∈ knownFlags then
        n = 1 ∧ here = [(argument, true), (name, Rust.longFlagAssignmentIsEnabled tables argument)]
      else (n = 1 ∨ value = none ∧ n = 2) ∧ here = [] := by
  constructor
  · intro h
    cases h with
    | short hno => rw [hlong] at hno; cases hno
    | value _ hsame hvalue =>
      cases hparts.symm.trans hsame
      simp [hvalue]
    | flag _ hsame hvalue hflag =>
      cases hparts.symm.trans hsame
      simp [hvalue, hflag]
    | unknown arity _ hsame hvalue hflag harity =>
      cases hparts.symm.trans hsame
      cases arity <;> simp_all
  · split
    · rintro ⟨rfl, rfl⟩
      exact .value hlong hparts ‹_›
    split
    · rintro ⟨rfl, rfl⟩
      exact .flag hlong hparts ‹_› ‹_›
    · rintro ⟨rfl | ⟨hnone, rfl⟩, rfl⟩
      · exact .unknown false hlong hparts ‹_› ‹_› nofun
      · exact .unknown true hlong hparts ‹_› ‹_› fun _ => hnone

/-- What a transition says of an option: how far it advances and the set of its assignments. -/
theorem mem_optionShape (argument : String) (t : OptionTransition) :
    t ∈ (Rust.optionShape tables optionsWithValues knownFlags argument).transitions ↔
      ∃ n here, OptionReads tables optionsWithValues knownFlags argument n here ∧ t = ⟨n, here.toFinset⟩ := by
  unfold Rust.optionShape
  cases hlong : startsWith "--" argument with
  | false =>
    have hshape : t ∈ (Rust.shortOptionShape optionsWithValues knownFlags argument).transitions ↔
        ∃ n read, ClusterReads optionsWithValues knownFlags (argument.toList.drop 1) n read ∧
          t = optionWithFlags n read.toFinset := by
      refine Rust.transitionOrder.mem_list.trans ((mem_shortCluster t _ ∅ ∅ true).trans ?_)
      simp
    rw [Bool.not_false, if_pos rfl, hshape]
    have hflags : ∀ n (read : List String), optionWithFlags n read.toFinset =
        ⟨n, (read.map (fun flag => (flag, true))).toFinset⟩ := by
      intro n read
      have himage : read.toFinset.image (fun flag => (flag, true)) =
          (read.map (fun flag => (flag, true))).toFinset := by
        ext x
        simp
      rw [optionWithFlags, himage]
    constructor
    · rintro ⟨n, read, hread, rfl⟩
      exact ⟨n, _, .short hlong hread, hflags n read⟩
    · rintro ⟨n, here, hreads, rfl⟩
      cases hreads with
      | short _ hcluster => exact ⟨n, _, hcluster, (hflags n _).symm⟩
      | value hyes | flag hyes | unknown _ hyes => rw [hlong] at hyes; cases hyes
  | true =>
    obtain ⟨name, value, hparts⟩ : ∃ name value, Rust.partitionAssignment argument = (name, value) := ⟨_, _, rfl⟩
    rw [Bool.not_true, if_neg Bool.false_ne_true, hparts]
    simp only [optionReads_long hlong hparts]
    by_cases hvalue : name ∈ optionsWithValues
    · simp [hvalue]
    · by_cases hflag : name ∈ knownFlags
      · simp [hvalue, hflag]
      · cases value <;> simp [hvalue, hflag, or_and_right, exists_or]

/-- What a reading says of an option is among its transitions. -/
theorem OptionReads.advance_mem {argument : String} {i j n : Nat} {here : List (String × Bool)}
    (h : OptionReads tables optionsWithValues knownFlags argument n here) :
    (i + n, j) ∈ (Rust.optionShape tables optionsWithValues knownFlags argument).transitions.map
      (fun t => (i + t.advance, j)) :=
  List.mem_map.2 ⟨⟨n, here.toFinset⟩, (mem_optionShape argument _).2 ⟨n, here, h, rfl⟩, rfl⟩

/-- A reading of an option advances, and there is one. -/
theorem OptionReads.advance_pos {argument : String} {n : Nat} {here : List (String × Bool)}
    (h : OptionReads tables optionsWithValues knownFlags argument n here) : 0 < n := by
  have hcluster : ∀ {cs : List Char} {n : Nat} {flags : List String},
      ClusterReads optionsWithValues knownFlags cs n flags → 0 < n := by
    intro cs n flags h
    induction h with
    | done => exact Nat.one_pos
    | value c cs => split <;> omega
    | flag _ _ _ ih | unknownFlag _ _ _ ih => exact ih
    | unknownValue => split <;> omega
  cases h with
  | short _ h => exact hcluster h
  | value => split <;> omega
  | flag => exact Nat.one_pos
  | unknown => split <;> omega

theorem exists_clusterReads (optionsWithValues knownFlags : Finset String) :
    ∀ cs : List Char, ∃ n flags, ClusterReads optionsWithValues knownFlags cs n flags
  | [] => ⟨1, [], .done⟩
  | c :: cs => by
    obtain ⟨n, flags, hrest⟩ := exists_clusterReads optionsWithValues knownFlags cs
    by_cases hvalue : shortOption c ∈ optionsWithValues
    · exact ⟨_, [], .value c cs hvalue⟩
    · by_cases hflag : shortOption c ∈ knownFlags
      · exact ⟨n, _, .flag hvalue hflag hrest⟩
      · exact ⟨n, flags, .unknownFlag hvalue hflag hrest⟩

theorem exists_optionReads (tables : CharTables) (optionsWithValues knownFlags : Finset String) (argument : String) :
    ∃ n here, OptionReads tables optionsWithValues knownFlags argument n here := by
  cases hlong : startsWith "--" argument with
  | false =>
    obtain ⟨n, flags, h⟩ := exists_clusterReads optionsWithValues knownFlags (argument.toList.drop 1)
    exact ⟨n, _, .short hlong h⟩
  | true =>
    by_cases hvalue : (Rust.partitionAssignment argument).1 ∈ optionsWithValues
    · exact ⟨_, _, .value hlong rfl hvalue⟩
    · by_cases hflag : (Rust.partitionAssignment argument).1 ∈ knownFlags
      · exact ⟨_, _, .flag hlong rfl hvalue hflag⟩
      · exact ⟨_, _, .unknown false hlong rfl hvalue hflag (fun h => by cases h)⟩

/-- **Every argument list has a reading**: options advance, so reading ends. -/
theorem exists_reading (arguments : List String) :
    ∃ words assigned tail, Reading tables optionsWithValues knownFlags arguments words assigned tail := by
  induction hlength : arguments.length using Nat.strong_induction_on generalizing arguments with
  | _ length ih =>
    cases arguments with
    | nil => exact ⟨[], [], none, .done⟩
    | cons argument rest =>
      by_cases hterminator : argument = "--"
      · subst hterminator
        exact ⟨[], [], some rest, .terminator rest⟩
      cases hoption : isOption argument with
      | false =>
        obtain ⟨words, assigned, tail, hrest⟩ := ih rest.length (by simp at hlength; omega) rest rfl
        exact ⟨_, assigned, tail, .word hterminator hoption hrest⟩
      | true =>
        obtain ⟨n, here, hreads⟩ := exists_optionReads tables optionsWithValues knownFlags argument
        have hpos := hreads.advance_pos
        obtain ⟨words, assigned, tail, hrest⟩ := ih ((argument :: rest).drop n).length
          (by simp at hlength ⊢; omega) _ rfl
        exact ⟨words, _, tail, .option hterminator hoption hreads hrest⟩

end Shapes

/-! ## The search for subcommands -/

section Subcommands

variable {tables : CharTables} {optionsWithValues knownFlags : Finset String} {arguments subcommands : List String}

/-- The search comes from a state to one that ends it. -/
def Stops (visit : Nat × Nat → Visit (Nat × Nat) ParseOutcome) (state : Nat × Nat) : Prop :=
  ∃ s, Reaches visit state s ∧ ∃ v, visit s = .stop v

theorem drop_eq_cons_of_getElem? {l : List String} {i : Nat} {a : String} (h : l[i]? = some a) :
    l.drop i = a :: l.drop (i + 1) := by
  obtain ⟨hi, rfl⟩ := List.getElem?_eq_some_iff.1 h
  exact List.drop_eq_getElem_cons hi

theorem getElem?_of_drop_eq_cons {l : List String} {i : Nat} {a : String} {rest : List String}
    (h : l.drop i = a :: rest) : l[i]? = some a ∧ rest = l.drop (i + 1) := by
  have hget : l[i]? = some a := by rw [← List.head?_drop, h]; rfl
  rw [drop_eq_cons_of_getElem? hget] at h
  exact ⟨hget, (List.cons.inj h).2.symm⟩

theorem subcommandVisit_go {i j : Nat} {next : List (Nat × Nat)} {s : Nat × Nat}
    (h : subcommandVisit tables optionsWithValues knownFlags arguments subcommands (i, j) = .go next)
    (hs : s ∈ next) : ∃ argument, arguments[i]? = some argument ∧ argument ≠ "--" ∧ j ≠ subcommands.length ∧
      ((isOption argument = true ∧ ∃ n here, OptionReads tables optionsWithValues knownFlags argument n here ∧
          s = (i + n, j)) ∨
        (isOption argument = false ∧ subcommands[j]? = some argument ∧ s = (i + 1, j + 1))) := by
  simp only [subcommandVisit] at h
  repeat' split at h
  any_goals cases h
  any_goals exact absurd hs List.not_mem_nil
  · rename_i hj _ argument hargument hterminator hoption
    obtain ⟨t, ht, rfl⟩ := List.mem_map.1 hs
    obtain ⟨n, here, hreads, rfl⟩ := (mem_optionShape argument t).1 ht
    exact ⟨argument, hargument, hterminator, hj, .inl ⟨hoption, n, here, hreads, rfl⟩⟩
  · rename_i hj _ argument hargument hterminator hoption hsubcommand
    exact ⟨argument, hargument, hterminator, hj, .inr ⟨by simpa using hoption, hsubcommand, List.mem_singleton.1 hs⟩⟩

theorem subcommandVisit_stop_iff {i j : Nat} :
    (∃ v, subcommandVisit tables optionsWithValues knownFlags arguments subcommands (i, j) = .stop v) ↔
      j = subcommands.length ∨ arguments[i]? = some "--" ∧ subcommands.drop j <+: arguments.drop (i + 1) := by
  simp only [subcommandVisit]
  by_cases hj : j = subcommands.length
  · rw [if_pos hj]
    exact ⟨fun _ => .inl hj, fun _ => ⟨_, rfl⟩⟩
  rw [if_neg hj]
  cases hargument : arguments[i]? with
  | none => simp [hj]
  | some argument =>
    by_cases hterminator : argument = "--"
    · subst hterminator
      by_cases hrest : (subcommands.drop j).isPrefixOf (arguments.drop (i + 1)) = true
      · simp [hj, hrest, List.isPrefixOf_iff_prefix.1 hrest]
      · have hno : ¬ subcommands.drop j <+: arguments.drop (i + 1) := fun h => hrest (List.isPrefixOf_iff_prefix.2 h)
        simp [hj, hrest, hno]
    · simp only [hterminator, if_false, Option.some.injEq, false_and, or_false, hj, iff_false, not_exists]
      intro v
      split
      · simp
      · split <;> simp

/-- A reading that starts with the path, from the state where the search ends. -/
theorem startsWithPath_of_stop {i j : Nat}
    (h : j = subcommands.length ∨ arguments[i]? = some "--" ∧ subcommands.drop j <+: arguments.drop (i + 1)) :
    StartsWithPath tables optionsWithValues knownFlags (arguments.drop i) (subcommands.drop j) := by
  rcases h with rfl | ⟨hterminator, hrest⟩
  · obtain ⟨words, assigned, tail, hreading⟩ := exists_reading (arguments.drop i)
    exact ⟨words, assigned, tail, hreading, .inl (by simp)⟩
  · rw [drop_eq_cons_of_getElem? hterminator]
    exact ⟨[], [], _, .terminator _, .inr ⟨_, _, rfl, rfl, hrest⟩⟩

/-- **The search finds the readings that start with the path**, from every state it is in. -/
theorem startsWithPath_of_stops {state : Nat × Nat}
    (h : Stops (subcommandVisit tables optionsWithValues knownFlags arguments subcommands) state) :
    StartsWithPath tables optionsWithValues knownFlags (arguments.drop state.1) (subcommands.drop state.2) := by
  obtain ⟨s, hreach, hstop⟩ := h
  induction hreach using Relation.ReflTransGen.head_induction_on with
  | refl => exact startsWithPath_of_stop (subcommandVisit_stop_iff.1 hstop)
  | head hstep hreach ih =>
    rename_i a b
    obtain ⟨i, j⟩ := a
    obtain ⟨next, hnext, hb⟩ := hstep
    obtain ⟨argument, hargument, hterminator, -, hcase⟩ := subcommandVisit_go hnext hb
    obtain ⟨words, assigned, tail, hreading, hpath⟩ := ih
    have hdrop := drop_eq_cons_of_getElem? hargument
    rcases hcase with ⟨hoption, n, here, hreads, rfl⟩ | ⟨hoption, hsubcommand, rfl⟩
    · have hrest : (argument :: arguments.drop (i + 1)).drop n = arguments.drop (i + n) := by
        rw [← hdrop, List.drop_drop]
      refine ⟨words, here ++ assigned, tail, ?_, hpath⟩
      simp only at hreading ⊢
      rw [hdrop]
      exact .option hterminator hoption hreads (hrest ▸ hreading)
    · simp only at hreading hpath ⊢
      rw [hdrop, drop_eq_cons_of_getElem? hsubcommand]
      refine ⟨argument :: words, assigned, tail, .word hterminator hoption hreading, ?_⟩
      rcases hpath with hwords | ⟨rest, unmatched, htail, hsplit, hrest⟩
      · exact .inl (List.cons_prefix_cons.2 ⟨rfl, hwords⟩)
      · exact .inr ⟨rest, unmatched, htail, by rw [hsplit]; rfl, hrest⟩

theorem stops_of_step {state next : Nat × Nat} {states : List (Nat × Nat)}
    (h : subcommandVisit tables optionsWithValues knownFlags arguments subcommands state = .go states)
    (hnext : next ∈ states)
    (hstops : Stops (subcommandVisit tables optionsWithValues knownFlags arguments subcommands) next) :
    Stops (subcommandVisit tables optionsWithValues knownFlags arguments subcommands) state := by
  obtain ⟨s, hreach, hstop⟩ := hstops
  exact ⟨s, Relation.ReflTransGen.head ⟨states, h, hnext⟩ hreach, hstop⟩

theorem stops_of_stop {i j : Nat}
    (h : j = subcommands.length ∨ arguments[i]? = some "--" ∧ subcommands.drop j <+: arguments.drop (i + 1)) :
    Stops (subcommandVisit tables optionsWithValues knownFlags arguments subcommands) (i, j) :=
  ⟨(i, j), .refl, subcommandVisit_stop_iff.2 h⟩

theorem stops_of_reading {args words : List String} {assigned : List (String × Bool)} {tail : Option (List String)}
    (hreading : Reading tables optionsWithValues knownFlags args words assigned tail) :
    ∀ i j, args = arguments.drop i → j ≤ subcommands.length →
      (subcommands.drop j <+: words ∨
        ∃ rest unmatched, tail = some rest ∧ subcommands.drop j = words ++ unmatched ∧ unmatched <+: rest) →
      Stops (subcommandVisit tables optionsWithValues knownFlags arguments subcommands) (i, j) := by
  have hend : ∀ {j : Nat}, j ≤ subcommands.length → subcommands.drop j = [] → j = subcommands.length := by
    intro j hle hnil
    have := List.drop_eq_nil_iff.1 hnil
    omega
  induction hreading with
  | done =>
    intro i j _ hle hpath
    rcases hpath with hwords | ⟨rest, unmatched, htail, _⟩
    · exact stops_of_stop (.inl (hend hle (List.prefix_nil.1 hwords)))
    · cases htail
  | terminator rest =>
    intro i j hargs hle hpath
    obtain ⟨hget, hrest⟩ := getElem?_of_drop_eq_cons hargs.symm
    rcases hpath with hwords | ⟨rest', unmatched, htail, hsplit, hunmatched⟩
    · exact stops_of_stop (.inl (hend hle (List.prefix_nil.1 hwords)))
    · cases htail
      rw [List.nil_append] at hsplit
      exact stops_of_stop (.inr ⟨hget, by rw [hsplit, ← hrest]; exact hunmatched⟩)
  | @word argument rest words assigned tail hterminator hoption _ ih =>
    intro i j hargs hle hpath
    by_cases hj : j = subcommands.length
    · exact stops_of_stop (.inl hj)
    obtain ⟨hget, hrest⟩ := getElem?_of_drop_eq_cons hargs.symm
    obtain ⟨subcommand, hsubcommand⟩ : ∃ subcommand, subcommands[j]? = some subcommand :=
      ⟨_, List.getElem?_eq_getElem (by omega)⟩
    have hword : subcommand = argument ∧ (subcommands.drop (j + 1) <+: words ∨
        ∃ rest unmatched, tail = some rest ∧ subcommands.drop (j + 1) = words ++ unmatched ∧ unmatched <+: rest) := by
      rw [drop_eq_cons_of_getElem? hsubcommand] at hpath
      rcases hpath with hwords | ⟨rest', unmatched, htail, hsplit, hunmatched⟩
      · obtain ⟨hhead, htail⟩ := List.cons_prefix_cons.1 hwords
        exact ⟨hhead, .inl htail⟩
      · obtain ⟨hhead, hrest⟩ := List.cons.inj hsplit
        exact ⟨hhead, .inr ⟨rest', unmatched, htail, hrest, hunmatched⟩⟩
    obtain ⟨rfl, hpath'⟩ := hword
    have hvisit : subcommandVisit tables optionsWithValues knownFlags arguments subcommands (i, j) =
        .go [(i + 1, j + 1)] := by
      simp [subcommandVisit, hj, hget, hterminator, hoption, hsubcommand]
    exact stops_of_step hvisit List.mem_cons_self (ih (i + 1) (j + 1) hrest (by omega) hpath')
  | @option argument rest words n here assigned tail hterminator hoption hreads _ ih =>
    intro i j hargs hle hpath
    by_cases hj : j = subcommands.length
    · exact stops_of_stop (.inl hj)
    obtain ⟨hget, -⟩ := getElem?_of_drop_eq_cons hargs.symm
    refine stops_of_step ?_ hreads.advance_mem (ih (i + n) j ?_ hle hpath)
    · simp [subcommandVisit, hj, hget, hterminator, hoption]
    · rw [hargs, List.drop_drop]

/-- The search visits states of readings only. -/
theorem pathState_of_reaches {s : Nat × Nat}
    (h : Reaches (subcommandVisit tables optionsWithValues knownFlags arguments subcommands) (0, 0) s) :
    PathState tables optionsWithValues knownFlags arguments subcommands s := by
  induction h with
  | refl => exact .start
  | tail _ hstep ih =>
    rename_i a b _
    obtain ⟨i, j⟩ := a
    obtain ⟨next, hnext, hb⟩ := hstep
    obtain ⟨argument, hargument, hterminator, -, hcase⟩ := subcommandVisit_go hnext hb
    rcases hcase with ⟨hoption, n, here, hreads, rfl⟩ | ⟨hoption, hsubcommand, rfl⟩
    · exact .option ih hargument hterminator hoption hreads
    · exact .word ih hargument hterminator hoption hsubcommand

/-- A search that does not end early visits all of them. -/
theorem reaches_of_pathState
    (hcalm : ∀ s, Reaches (subcommandVisit tables optionsWithValues knownFlags arguments subcommands) (0, 0) s →
      ∀ v, subcommandVisit tables optionsWithValues knownFlags arguments subcommands s ≠ .stop v)
    {s : Nat × Nat} (h : PathState tables optionsWithValues knownFlags arguments subcommands s) :
    Reaches (subcommandVisit tables optionsWithValues knownFlags arguments subcommands) (0, 0) s := by
  have hbefore : ∀ {i j : Nat},
      Reaches (subcommandVisit tables optionsWithValues knownFlags arguments subcommands) (0, 0) (i, j) →
        j ≠ subcommands.length := by
    rintro i j hreach rfl
    obtain ⟨v, hv⟩ := subcommandVisit_stop_iff.2 (.inl rfl)
    exact hcalm _ hreach v hv
  induction h with
  | start => exact .refl
  | @word i j argument _ hargument hterminator hoption hsubcommand ih =>
    refine ih.tail ⟨[(i + 1, j + 1)], ?_, List.mem_cons_self⟩
    simp [subcommandVisit, hbefore ih, hargument, hterminator, hoption, hsubcommand]
  | @option i j n argument here _ hargument hterminator hoption hreads ih =>
    refine ih.tail ⟨_, ?_, hreads.advance_mem⟩
    simp [subcommandVisit, hbefore ih, hargument, hterminator, hoption]

/-- **When the search finishes**: the states of readings fit the budget and no reading starts with the path. -/
theorem subcommand_search_finished_iff (limit : Nat) :
    (∃ noted, explore limit (subcommandVisit tables optionsWithValues knownFlags arguments subcommands) false
        [(0, 0)] ∅ = .finished noted) ↔
      {s | PathState tables optionsWithValues knownFlags arguments subcommands s}.encard ≤ limit ∧
        ¬ StartsWithPath tables optionsWithValues knownFlags arguments subcommands := by
  have hpath : StartsWithPath tables optionsWithValues knownFlags arguments subcommands ↔
      Stops (subcommandVisit tables optionsWithValues knownFlags arguments subcommands) (0, 0) := by
    constructor
    · rintro ⟨words, assigned, tail, hreading, hpath⟩
      exact stops_of_reading hreading 0 0 rfl (Nat.zero_le _) hpath
    · exact startsWithPath_of_stops
  have hcalm : ¬ StartsWithPath tables optionsWithValues knownFlags arguments subcommands ↔
      ∀ s, Reaches (subcommandVisit tables optionsWithValues knownFlags arguments subcommands) (0, 0) s →
        ∀ v, subcommandVisit tables optionsWithValues knownFlags arguments subcommands s ≠ .stop v := by
    rw [hpath, Stops]
    simp only [not_exists, not_and, ne_eq]
  rw [hcalm, Lib.encard_le_iff, Lib.explore_finishes_iff]
  constructor
  · rintro ⟨hquiet, states, hcard, hall⟩
    exact ⟨⟨states, hcard, fun s hs => hall s (reaches_of_pathState hquiet hs)⟩, hquiet⟩
  · rintro ⟨⟨states, hcard, hall⟩, hquiet⟩
    exact ⟨hquiet, states, hcard, fun s hs => hall s (pathState_of_reaches hs)⟩

theorem agree_self (text : String) : Agree tables tables text := ⟨fun _ _ => rfl, fun _ _ => rfl⟩

/-- **A command line does not match a path exactly when no reading of it does.**  The answer is no if and only if the
states of readings number at most 16384 and no choice of arities makes the words start with the path, before the
terminator or across it.  So it is in the reference, and so it is whatever the order in which transitions are pushed. -/
theorem subcommands_unmatched_iff (tables : CharTables) (orders : Python.SetOrders)
    (optionsWithValues knownFlags : Finset String) (arguments subcommands : List String) :
    (Rust.matchesSubcommandsConservatively tables optionsWithValues knownFlags arguments subcommands = false ↔
      {s | PathState tables optionsWithValues knownFlags arguments subcommands s}.encard ≤ 16384 ∧
        ¬ StartsWithPath tables optionsWithValues knownFlags arguments subcommands) ∧
    Python.matchesSubcommandsConservatively tables orders optionsWithValues knownFlags arguments subcommands =
      Rust.matchesSubcommandsConservatively tables optionsWithValues knownFlags arguments subcommands ∧
    ∀ visit, (∀ s, (Rust.subcommandVisit tables optionsWithValues knownFlags arguments subcommands s).Alike (visit s)) →
      ((∃ noted, explore maxOptionParseStates visit false [(0, 0)] ∅ = .finished noted) ↔
        Rust.matchesSubcommandsConservatively tables optionsWithValues knownFlags arguments subcommands = false) := by
  have hanswer : Rust.matchesSubcommandsConservatively tables optionsWithValues knownFlags arguments subcommands =
      false ↔
      ∃ noted, explore maxOptionParseStates (subcommandVisit tables optionsWithValues knownFlags arguments subcommands)
        false [(0, 0)] ∅ = .finished noted := by
    rw [Rust.matchesSubcommandsConservatively, bne_eq_false_iff_eq]
    exact subcommandParseOutcome_eq_noMatch optionsWithValues knownFlags
  refine ⟨hanswer.trans (subcommand_search_finished_iff maxOptionParseStates),
    (matchesSubcommandsConservatively_eq orders optionsWithValues knownFlags
      (fun a _ => agree_self a) subcommands).symm,
    fun visit halike => ?_⟩
  rw [hanswer]
  exact exists_congr (fun _ => (Lib.explore_finished_congr halike).symm)

end Subcommands

end Options
end Guard
