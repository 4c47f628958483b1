import HolGuard.Options.PythonSemantics
/-!
# The two option semantics agree

Both sides gather the same flags and assignments: the dictionary of the reference and the vector with its index of the
resident hold the same options in the same order.  Both sides give an option the same shape up to the order of its
transitions, and a bounded search answers the question each caller asks independently of that order.
-/
namespace Guard
namespace Options

open Lib (Enumeration KeyMap Visit SearchResult explore)
open Rust (partitionAssignment)

/-- The two runtimes classify the characters of the text alike and lower the case of every part of it alike. -/
def Agree (python rust : CharTables) (text : String) : Prop :=
  (∀ c ∈ text.toList, python.isAlnum c = rust.isAlnum c) ∧
    ∀ part : String, part.toList <:+: text.toList → python.lower part = rust.lower part

/-- No name occurs twice among the pairs, as the validation of a contract demands. -/
def AliasDisjoint (pairs : Finset (String × String)) : Prop :=
  ∀ p ∈ pairs, p.1 ≠ p.2 ∧ ∀ q ∈ pairs, q ≠ p → p.1 ≠ q.1 ∧ p.1 ≠ q.2 ∧ p.2 ≠ q.1 ∧ p.2 ≠ q.2

instance (pairs : Finset (String × String)) : Decidable (AliasDisjoint pairs) :=
  inferInstanceAs (Decidable (∀ p ∈ pairs, p.1 ≠ p.2 ∧
    ∀ q ∈ pairs, q ≠ p → p.1 ≠ q.1 ∧ p.1 ≠ q.2 ∧ p.2 ≠ q.1 ∧ p.2 ≠ q.2))

/-! ## Assignments inside one argument -/

theorem partition_eq (argument : String) : Python.partition argument =
    ((partitionAssignment argument).1, (partitionAssignment argument).2.isSome,
      (partitionAssignment argument).2.getD "") := by
  unfold Python.partition partitionAssignment
  cases Lib.splitOnce ['='] argument.toList <;> rfl

theorem partitionAssignment_isNone (argument : String) :
    '=' ∉ argument.toList ↔ (partitionAssignment argument).2.isNone = true := by
  unfold partitionAssignment
  rw [← Lib.splitOnce_eq_none]
  cases Lib.splitOnce ['='] argument.toList <;> simp

variable {argument : String}

theorem mem_of_mem_name {c : Char} (h : c ∈ (partitionAssignment argument).1.toList) :
    c ∈ argument.toList := by
  unfold partitionAssignment at h
  cases hs : Lib.splitOnce ['='] argument.toList with
  | none => rwa [hs] at h
  | some q =>
    rw [hs] at h
    simp only [String.toList_ofList] at h
    rw [Lib.splitOnce_eq_some hs]
    exact List.mem_append_left _ h

theorem value_within {value : String} (h : (partitionAssignment argument).2 = some value) :
    value.toList <:+: argument.toList := by
  unfold partitionAssignment at h
  cases hs : Lib.splitOnce ['='] argument.toList with
  | none => rw [hs] at h; cases h
  | some q =>
    rw [hs] at h
    cases h
    rw [String.toList_ofList, Lib.splitOnce_eq_some hs]
    exact ⟨q.1 ++ ['='], [], by simp⟩

/-! ## Inverse aliases -/

section

variable {pairs : Finset (String × String)}

def aliasOwner (pairs : List (String × String)) (name : String) : Option (String × String) :=
  pairs.find? (fun q => name = q.1 ∨ name = q.2)

/-- Every enumeration of disjoint pairs finds the same owner of a name. -/
theorem aliasOwner_eq (hpairs : AliasDisjoint pairs) {l m : List (String × String)} (hl : ∀ q, q ∈ l ↔ q ∈ pairs)
    (hm : ∀ q, q ∈ m ↔ q ∈ pairs) (name : String) : aliasOwner l name = aliasOwner m name := by
  have hsome : ∀ {k : List (String × String)}, (∀ q, q ∈ k ↔ q ∈ pairs) → ∀ q, aliasOwner k name = some q ↔
      q ∈ pairs ∧ (name = q.1 ∨ name = q.2) := by
    intro k hk q
    constructor
    · intro h
      exact ⟨(hk q).1 (List.mem_of_find?_eq_some h), by simpa using List.find?_some h⟩
    · rintro ⟨hq, hname⟩
      cases hfind : aliasOwner k name with
      | none =>
        have := List.find?_eq_none.1 hfind q ((hk q).2 hq)
        exact absurd hname (by simpa using this)
      | some p =>
        have hp := (hk p).1 (List.mem_of_find?_eq_some hfind)
        have hpname : name = p.1 ∨ name = p.2 := by simpa using List.find?_some hfind
        by_cases hpq : q = p
        · rw [hpq]
        · obtain ⟨h1, h2, h3, h4⟩ := (hpairs p hp).2 q hq hpq
          rcases hname with rfl | rfl <;> rcases hpname with he | he
          · exact absurd he.symm h1
          · exact absurd he.symm h3
          · exact absurd he.symm h2
          · exact absurd he.symm h4
  exact Option.ext (fun q => (hsome hl q).trans (hsome hm q).symm)

def aliasEntry (owner : Option (String × String)) (name : String) : Option (String × String × Bool) :=
  owner.map (fun q => (q.1, q.2, name == q.1))

/-- Adding pairs one after another to a table, with the two aliases of a pair added in either way. -/
theorem get?_foldl_aliases (add : InverseAliases → String × String → InverseAliases)
    (hadd : ∀ m q name, q.1 ≠ q.2 → (add m q).get? name =
      if name = q.1 ∨ name = q.2 then some (q.1, q.2, name == q.1) else m.get? name) (name : String) :
    ∀ (l : List (String × String)) (m : InverseAliases), (∀ q ∈ l, q.1 ≠ q.2) →
      (l.Pairwise (fun p q => p.1 ≠ q.1 ∧ p.1 ≠ q.2 ∧ p.2 ≠ q.1 ∧ p.2 ≠ q.2)) →
      (l.foldl add m).get? name = (aliasEntry (aliasOwner l name) name).or (m.get? name)
  | [], m, _, _ => rfl
  | q :: l, m, hne, hdisjoint => by
    rw [List.pairwise_cons] at hdisjoint
    rw [List.foldl_cons, get?_foldl_aliases add hadd name l (add m q) (fun p hp => hne p (List.mem_cons_of_mem _ hp))
      hdisjoint.2, hadd m q name (hne q List.mem_cons_self)]
    by_cases hname : name = q.1 ∨ name = q.2
    · -- the later pairs do not have this name
      have hnone : aliasOwner l name = none := by
        refine List.find?_eq_none.2 (fun p hp => ?_)
        obtain ⟨h1, h2, h3, h4⟩ := hdisjoint.1 p hp
        rcases hname with rfl | rfl
        · simpa using ⟨h1, h2⟩
        · simpa using ⟨h3, h4⟩
      have howner : aliasOwner (q :: l) name = some q := List.find?_cons_of_pos (by simpa using hname)
      rw [hnone, howner, if_pos hname]
      rfl
    · have howner : aliasOwner (q :: l) name = aliasOwner l name := List.find?_cons_of_neg (by simpa using hname)
      rw [howner, if_neg hname]

/-- **Both tables of aliases are the same**, whatever order the pairs come in. -/
theorem get?_inverseAliases (hpairs : AliasDisjoint pairs) (orders : Python.SetOrders) (name : String) :
    (Rust.inverseAliases pairs).get? name = (Python.inverseAliases orders pairs).get? name := by
  have hlist : ∀ e : Enumeration (String × String), (∀ q ∈ e.list pairs, q.1 ≠ q.2) ∧
      (e.list pairs).Pairwise (fun p q => p.1 ≠ q.1 ∧ p.1 ≠ q.2 ∧ p.2 ≠ q.1 ∧ p.2 ≠ q.2) := by
    intro e
    refine ⟨fun q hq => (hpairs q (e.mem_list.1 hq)).1, ?_⟩
    refine (e.nodup_list pairs).imp_of_mem (fun {p q} hp hq hne => ?_)
    exact (hpairs p (e.mem_list.1 hp)).2 q (e.mem_list.1 hq) (Ne.symm hne)
  have hrust := hlist Rust.pairOrder
  have hpython := hlist orders.pairs
  rw [Rust.inverseAliases, Python.inverseAliases, get?_foldl_aliases _ ?_ name _ _ hrust.1 hrust.2,
    get?_foldl_aliases _ ?_ name _ _ hpython.1 hpython.2,
    aliasOwner_eq hpairs (fun _ => Rust.pairOrder.mem_list) (fun _ => orders.pairs.mem_list)]
  · intro m q name hne
    simp only [List.foldl_cons, List.foldl_nil, KeyMap.get?_insert]
    by_cases h1 : name = q.1 <;> by_cases h2 : name = q.2 <;> simp_all
  · intro m q name hne
    simp only [KeyMap.get?_insert]
    by_cases h1 : name = q.1 <;> by_cases h2 : name = q.2 <;> simp_all

end

/-! ## Gathering -/

def toPython (o : Rust.EffectiveOption) : Python.EffectiveOption :=
  ⟨o.name, o.token, o.value, o.isValueOption, o.inversePair.map (fun p => p.1), o.inversePair.map (fun p => p.2.1),
    (o.inversePair.map (fun p => p.2.2)).getD true⟩

/-- The two sides hold the same flags and the same options in one order, and the index is that of the options. -/
structure Same (r : Rust.Gathered) (p : Python.Gathered) : Prop where
  flags : r.flags = p.flags
  options : p.effectiveOptions.pairs = r.assigned.options.map (fun o => (o.name, toPython o))
  indices : ∀ name, r.assigned.indices.get? name = (r.assigned.options.map Rust.EffectiveOption.name).idxOf? name

theorem same_empty : Same ⟨∅, ⟨[], .empty⟩⟩ ⟨∅, .empty⟩ := ⟨rfl, rfl, fun _ => rfl⟩

variable {r : Rust.Gathered} {p : Python.Gathered}

theorem same_addFlag (h : Same r p) (flag : String) : Same (r.addFlag flag) (p.addFlag flag) :=
  ⟨congrArg (insert flag) h.flags, h.options, h.indices⟩

theorem set_idxOf? {α : Type} (name : α → String) (o : α) : ∀ (l : List α) (i : Nat), (l.map name).Nodup →
    (l.map name).idxOf? (name o) = some i → l.set i o = l.map (fun x => if name x = name o then o else x)
  | [], _, _, h => by cases h
  | x :: l, i, hnodup, h => by
    rw [List.map_cons, List.nodup_cons] at hnodup
    rw [List.map_cons, List.idxOf?_cons] at h
    by_cases hx : name x = name o
    · rw [if_pos (by simpa using hx)] at h
      have hrest : l.map (fun y => if name y = name o then o else y) = l := by
        rw [List.map_congr_left (g := id), List.map_id]
        intro y hy
        rw [if_neg (fun hyo => hnodup.1 (List.mem_map.2 ⟨y, hy, hyo.trans hx.symm⟩))]
        rfl
      rw [← Option.some.inj h, List.set_cons_zero, List.map_cons, if_pos hx, hrest]
    · rw [if_neg (by simpa using hx)] at h
      obtain ⟨j, hj, rfl⟩ := Option.map_eq_some_iff.1 h
      rw [List.set_cons_succ, List.map_cons, if_neg hx, set_idxOf? name o l j hnodup.2 hj]

/-- Assigning replaces the option of the same name in place, or puts a new one at the end. -/
theorem same_assign (h : Same r p) (o : Rust.EffectiveOption) :
    Same (r.assign o) (p.assign o.name (toPython o)) := by
  have hnames : p.effectiveOptions.pairs.map Prod.fst = r.assigned.options.map Rust.EffectiveOption.name := by
    rw [h.options, List.map_map]
    rfl
  have hnodup : (r.assigned.options.map Rust.EffectiveOption.name).Nodup := hnames ▸ p.effectiveOptions.keysNodup
  have hplace := h.indices o.name
  cases hidx : r.assigned.indices.get? o.name with
  | none =>
    rw [hidx] at hplace
    have hnew : o.name ∉ p.effectiveOptions.pairs.map Prod.fst := hnames ▸ List.idxOf?_eq_none_iff.1 hplace.symm
    refine ⟨h.flags, ?_, fun name => ?_⟩
    · simp only [Python.Gathered.assign, Rust.Gathered.assign, Rust.assignEffectiveOption, hidx,
        KeyMap.pairs_insert_of_notMem hnew, h.options, List.map_append, List.map_cons, List.map_nil]
    · simp only [Rust.Gathered.assign, Rust.assignEffectiveOption, hidx, KeyMap.get?_insert, List.map_append]
      rw [List.idxOf?, List.findIdx?_append, ← List.idxOf?, ← h.indices name]
      by_cases hname : name = o.name
      · rw [hname, hidx]
        simp
      · simp [hname, Ne.symm hname]
  | some i =>
    rw [hidx] at hplace
    have hset := set_idxOf? Rust.EffectiveOption.name o _ i hnodup hplace.symm
    have hold : o.name ∈ p.effectiveOptions.pairs.map Prod.fst := by
      rw [hnames, ← List.isSome_idxOf?, ← hplace]
      rfl
    refine ⟨h.flags, ?_, fun name => ?_⟩
    · simp only [Python.Gathered.assign, Rust.Gathered.assign, Rust.assignEffectiveOption, hidx,
        KeyMap.pairs_insert_of_mem hold, h.options, hset, List.map_map]
      refine List.map_congr_left (fun x _ => ?_)
      by_cases hx : x.name = o.name
      · simp [hx]
      · simp [hx]
    · have hsame : (r.assigned.options.set i o).map Rust.EffectiveOption.name =
          r.assigned.options.map Rust.EffectiveOption.name := by
        rw [hset, List.map_map]
        refine List.map_congr_left (fun x _ => ?_)
        by_cases hx : x.name = o.name
        · simp [hx]
        · simp [hx]
      simp only [Rust.Gathered.assign, Rust.assignEffectiveOption, hidx, hsame, h.indices name]

section

variable {python rust : CharTables} {rustAliases pythonAliases : InverseAliases} (optionsWithValues : Finset String)

theorem same_gatherCluster (haliases : ∀ name, rustAliases.get? name = pythonAliases.get? name) :
    ∀ (cs : List Char) {r : Rust.Gathered} {p : Python.Gathered}, (∀ c ∈ cs, python.isAlnum c = rust.isAlnum c) →
      Same r p → Same (Rust.gatherCluster rust optionsWithValues rustAliases cs r)
        (Python.gatherCluster python optionsWithValues pythonAliases cs p)
  | [], _, _, _, h => h
  | c :: cs, r, p, hcs, h => by
    have hrest : ∀ d ∈ cs, python.isAlnum d = rust.isAlnum d := fun d hd => hcs d (List.mem_cons_of_mem _ hd)
    rw [Rust.gatherCluster, Python.gatherCluster, hcs c List.mem_cons_self]
    split
    · exact same_gatherCluster haliases cs hrest h
    · -- one flag of the cluster, or the option its alias stands for
      have hgo : ∀ {r p}, Same r p → Same (if shortOption c ∈ optionsWithValues then r
          else Rust.gatherCluster rust optionsWithValues rustAliases cs r)
          (if shortOption c ∈ optionsWithValues then p
          else Python.gatherCluster python optionsWithValues pythonAliases cs p) := by
        intro r p hone
        split
        · exact hone
        · exact same_gatherCluster haliases cs hrest hone
      simp only [haliases]
      cases pythonAliases.get? (shortOption c) with
      | none => exact hgo (same_addFlag h _)
      | some q => exact hgo (same_assign h ⟨q.1, shortOption c, none, false, some q⟩)

theorem same_gatherOption (haliases : ∀ name, rustAliases.get? name = pythonAliases.get? name)
    (argument optionName : String) (inlineValue following : Option String) (h : Same r p) :
    Same (Rust.gatherOption optionsWithValues rustAliases argument optionName inlineValue following r)
      (Python.gatherOption optionsWithValues pythonAliases argument optionName inlineValue.isSome (inlineValue.getD "")
        following p) := by
  simp only [Rust.gatherOption, Python.gatherOption, haliases]
  by_cases hlong : (startsWith "--" argument || (pythonAliases.get? optionName).isSome) = true
  · rw [if_pos hlong, if_pos hlong]
    have hassign : ∀ value, Same (r.assign ⟨_, argument, value, decide (optionName ∈ optionsWithValues), _⟩) _ :=
      fun value => same_assign h ⟨((pythonAliases.get? optionName).map (fun p => p.1)).getD optionName, argument, value,
        decide (optionName ∈ optionsWithValues), pythonAliases.get? optionName⟩
    cases inlineValue with
    | some value => simpa [toPython] using hassign (some value)
    | none =>
      by_cases hv : optionName ∈ optionsWithValues
      · simpa [toPython, hv] using hassign (some (following.getD ""))
      · simpa [toPython, hv] using hassign none
  · rw [if_neg hlong, if_neg hlong]
    by_cases hdash : (startsWith "-" argument && inlineValue.isSome) = true
    · rw [if_pos hdash, if_pos hdash]
      exact same_addFlag (same_addFlag h _) _
    · rw [if_neg hdash, if_neg hdash]
      exact same_addFlag h _

theorem same_gatherArgument (haliases : ∀ name, rustAliases.get? name = pythonAliases.get? name)
    (hagree : Agree python rust argument) (following : Option String) (h : Same r p) :
    Same (Rust.gatherArgument rust optionsWithValues rustAliases argument following r)
      (Python.gatherArgument python optionsWithValues pythonAliases argument following p) := by
  have hname : ∀ c ∈ (partitionAssignment argument).1.toList.drop 1, python.isAlnum c = rust.isAlnum c :=
    fun c hc => hagree.1 c (mem_of_mem_name (List.mem_of_mem_drop hc))
  have hself := same_gatherOption optionsWithValues haliases argument
    (partitionAssignment argument).1 (partitionAssignment argument).2 following h
  simp only [Rust.gatherArgument, Python.gatherArgument, partition_eq, haliases]
  split
  · exact same_gatherCluster optionsWithValues haliases _ hname hself
  · exact hself

/-- **Both loops gather the same.** -/
theorem same_gather (haliases : ∀ name, rustAliases.get? name = pythonAliases.get? name)
    (arguments : List String) (hagree : ∀ a ∈ arguments, Agree python rust a)
    {r : Rust.Gathered} {p : Python.Gathered} (h : Same r p) :
    Same (Rust.gather rust optionsWithValues rustAliases arguments r)
      (Python.gather python optionsWithValues pythonAliases arguments p) := by
  fun_induction Rust.gather rust optionsWithValues rustAliases arguments r generalizing p with
  | case1 r => rwa [Python.gather]
  | case2 rest r => rwa [Python.gather, if_pos rfl]
  | case3 argument rest r hdash name inline hparts g hskip ih =>
    have hstep := same_gatherArgument optionsWithValues haliases (hagree argument List.mem_cons_self) rest.head? h
    have hskip' : (Python.partition argument).1 ∈ optionsWithValues ∧ '=' ∉ argument.toList := by
      rw [partition_eq, partitionAssignment_isNone, hparts]
      exact hskip
    rw [Python.gather, if_neg hdash]
    simp only [if_pos hskip']
    exact ih (fun a ha => hagree a (List.mem_cons_of_mem _ (List.mem_of_mem_drop ha))) hstep
  | case4 argument rest r hdash name inline hparts g hskip ih =>
    have hstep := same_gatherArgument optionsWithValues haliases (hagree argument List.mem_cons_self) rest.head? h
    have hskip' : ¬ ((Python.partition argument).1 ∈ optionsWithValues ∧ '=' ∉ argument.toList) := by
      rw [partition_eq, partitionAssignment_isNone, hparts]
      exact hskip
    rw [Python.gather, if_neg hdash]
    simp only [if_neg hskip']
    exact ih (fun a ha => hagree a (List.mem_cons_of_mem _ ha)) hstep

end

/-! ## Present flags -/

theorem booleanFlagValue_eq (value : Option String) : Python.booleanFlagValue value = Rust.booleanFlagValue value := by
  cases value <;> rfl

theorem presentFlags_eq (flags : Finset String) (o : Rust.EffectiveOption) :
    Python.presentFlags flags (toPython o) = Rust.presentFlags flags o := by
  obtain ⟨name, token, value, isValueOption, inversePair⟩ := o
  cases inversePair with
  | none => rfl
  | some q =>
    obtain ⟨positive, negative, polarity⟩ := q
    simp only [Python.presentFlags, Rust.presentFlags, toPython, Option.map_some, Option.getD_some, booleanFlagValue_eq]
    cases Rust.booleanFlagValue value with
    | none => rfl
    | some assigned => cases assigned <;> cases polarity <;> rfl

variable {arguments : List String}

/-- **The argument semantics agree**: the same flags are present, and the same options are effective in the same
order. -/
theorem argumentSemantics_eq {python rust : CharTables} (orders : Python.SetOrders)
    (hagree : ∀ a ∈ arguments, Agree python rust a) (optionsWithValues : Finset String)
    {pairs : Finset (String × String)} (hpairs : AliasDisjoint pairs) :
    Rust.argumentSemantics rust arguments optionsWithValues pairs =
      Python.argumentSemantics python orders arguments optionsWithValues pairs := by
  have h := same_gather optionsWithValues (get?_inverseAliases hpairs orders) arguments hagree
    same_empty
  simp only [Rust.argumentSemantics, Python.argumentSemantics, h.options, h.flags, List.map_map, List.foldl_map]
  congr 1
  refine congrArg (fun f => List.foldl f _ _) ?_
  funext flags o
  exact (presentFlags_eq flags o).symm

/-! ## Option shapes -/

section

variable {python rust : CharTables} (orders : Python.SetOrders) (optionsWithValues knownFlags : Finset String)

omit orders optionsWithValues knownFlags in
/-- The first character of an option is one byte, so counting bytes and counting characters tell the same. -/
theorem isOption_eq (argument : String) : Rust.isOption argument = Python.isOption argument := by
  have hbytes : argument.utf8ByteSize = Lib.byteLength argument.toList := by
    rw [← Lib.utf8ByteSize_ofList, String.ofList_toList]
  simp only [Rust.isOption, Python.isOption, hbytes, startsWith]
  cases argument.toList with
  | nil => rfl
  | cons c cs =>
    by_cases hc : '-' = c
    · subst hc
      cases cs with
      | nil => rfl
      | cons d ds =>
        have hd : 0 < d.utf8Size := d.utf8Size_pos
        have hdash : ('-' : Char).utf8Size = 1 := rfl
        simp only [Lib.byteLength_cons, List.length_cons]
        congr 1
        simp only [decide_eq_decide]
        omega
    · have hne : ('-' == c) = false := by simpa using hc
      simp [List.isPrefixOf, hne]

/-- The two loops over a cluster are the same loop; one counts, one looks at the rest. -/
theorem shortCluster_eq (length : Nat) : ∀ (cs : List Char) (index : Nat) (transitions : Finset OptionTransition)
    (flags : Finset String) (fullyKnown : Bool), index + cs.length = length →
      Rust.shortCluster optionsWithValues knownFlags cs transitions flags fullyKnown =
        Python.shortCluster optionsWithValues knownFlags length index cs transitions flags fullyKnown
  | [], _, _, _, _, _ => rfl
  | c :: cs, index, transitions, flags, fullyKnown, hlength => by
    rw [List.length_cons] at hlength
    have hlast : cs.isEmpty = decide (index + 1 = length) := by
      cases cs <;> simp_all
      omega
    simp only [Rust.shortCluster, Python.shortCluster, shortCluster_eq length cs (index + 1) _ _ _ (by omega), hlast,
      decide_eq_true_eq]
    by_cases hc : index + 1 = length
    · simp [hc]
    · have hlt : index + 1 < length := by omega
      simp [hc, hlt]

theorem longFlagAssignmentIsEnabled_eq (hagree : Agree python rust argument) :
    Python.longFlagAssignmentIsEnabled python argument = Rust.longFlagAssignmentIsEnabled rust argument := by
  simp only [Python.longFlagAssignmentIsEnabled, Rust.longFlagAssignmentIsEnabled, partition_eq]
  cases hvalue : (partitionAssignment argument).2 with
  | none => rfl
  | some value =>
    simp only [Option.isSome_some, Option.getD_some, Option.all_some, hagree.2 value (value_within hvalue)]
    rfl

/-- **Both sides see the same transitions**, in some order. -/
theorem optionShape_alike (hagree : Agree python rust argument) :
    (Rust.optionShape rust optionsWithValues knownFlags argument).fullyKnown =
        (Python.optionShape python orders optionsWithValues knownFlags argument).fullyKnown ∧
      ∀ t, t ∈ (Rust.optionShape rust optionsWithValues knownFlags argument).transitions ↔
        t ∈ (Python.optionShape python orders optionsWithValues knownFlags argument).transitions := by
  simp only [Rust.optionShape, Python.optionShape, partition_eq, longFlagAssignmentIsEnabled_eq hagree]
  by_cases hlong : startsWith "--" argument = true
  · simp only [hlong, Bool.not_true, Bool.false_eq_true, if_false, if_true]
    generalize (partitionAssignment argument).1 = optionName
    generalize (partitionAssignment argument).2 = value
    by_cases hvalue : optionName ∈ optionsWithValues
    · cases value <;> simp [hvalue]
    · by_cases hknown : optionName ∈ knownFlags
      · simp [hvalue, hknown]
      · cases value <;> simp [hvalue, hknown]
  · simp only [hlong, Bool.not_false, if_true, Bool.false_eq_true, if_false]
    have hcluster : Rust.shortCluster optionsWithValues knownFlags (argument.toList.drop 1) ∅ ∅ true =
        Python.shortCluster optionsWithValues knownFlags argument.toList.length 1
          (argument.toList.drop 1) ∅ ∅ true := by
      cases argument.toList with
      | nil => rfl
      | cons c cs => exact shortCluster_eq optionsWithValues knownFlags _ cs 1 ∅ ∅ true (by simp; omega)
    simp only [Rust.shortOptionShape, Python.shortOptionShape, hcluster, Enumeration.mem_list, implies_true, and_self]

/-- No flag is assigned twice. -/
def Functional (t : OptionTransition) : Prop :=
  ∀ flag b b', (flag, b) ∈ t.flagAssignments → (flag, b') ∈ t.flagAssignments → b = b'

theorem functional_optionWithFlags (advance : Nat) (flags : Finset String) :
    Functional (optionWithFlags advance flags) := by
  intro flag b b' hb hb'
  simp only [optionWithFlags, Finset.mem_image, Prod.mk.injEq] at hb hb'
  obtain ⟨_, -, -, rfl⟩ := hb
  obtain ⟨_, -, -, rfl⟩ := hb'
  rfl

theorem functional_shortCluster : ∀ (cs : List Char) (transitions : Finset OptionTransition) (flags : Finset String)
    (fullyKnown : Bool), (∀ t ∈ transitions, Functional t) →
      ∀ t ∈ (Rust.shortCluster optionsWithValues knownFlags cs transitions flags fullyKnown).1, Functional t
  | [], transitions, flags, _, h, t, ht => by
    rcases Finset.mem_insert.1 ht with rfl | ht
    · exact functional_optionWithFlags 1 flags
    · exact h t ht
  | c :: cs, transitions, flags, fullyKnown, h, t, ht => by
    have hinsert : ∀ advance (ts : Finset OptionTransition), (∀ u ∈ ts, Functional u) →
        ∀ u ∈ insert (optionWithFlags advance flags) ts, Functional u := by
      intro advance ts hts u hu
      rcases Finset.mem_insert.1 hu with rfl | hu
      · exact functional_optionWithFlags advance flags
      · exact hts u hu
    rw [Rust.shortCluster] at ht
    split at ht
    · exact hinsert _ _ h t ht
    · split at ht
      · exact functional_shortCluster cs _ _ _ h t ht
      · refine functional_shortCluster cs _ _ _ ?_ t ht
        split
        · exact hinsert _ _ (hinsert _ _ h)
        · exact hinsert _ _ h

/-- **An option assigns each flag once.**  A long option assigns its token and its name; where the two are one text
there is no value, and both say the flag is set. -/
theorem functional_optionShape (argument : String) :
    ∀ t ∈ (Rust.optionShape rust optionsWithValues knownFlags argument).transitions, Functional t := by
  intro t ht
  rw [Rust.optionShape] at ht
  split at ht
  · exact functional_shortCluster optionsWithValues knownFlags _ ∅ ∅ true
      (fun u hu => absurd hu (Finset.notMem_empty u)) t (Rust.transitionOrder.mem_list.1 ht)
  · have hempty : ∀ advance, Functional ⟨advance, ∅⟩ := fun _ _ _ _ hb => absurd hb (Finset.notMem_empty _)
    simp only at ht
    split at ht
    · rw [List.mem_singleton.1 ht]
      have hsame : argument = (partitionAssignment argument).1 →
          Rust.longFlagAssignmentIsEnabled rust argument = true := by
        intro heq
        cases hvalue : (partitionAssignment argument).2 with
        | none => rw [Rust.longFlagAssignmentIsEnabled, hvalue]; rfl
        | some value =>
          -- with a value the name is shorter than the argument
          exfalso
          unfold partitionAssignment at heq hvalue
          cases hs : Lib.splitOnce ['='] argument.toList with
          | none => rw [hs] at hvalue; cases hvalue
          | some q =>
            rw [hs] at heq
            have hname : argument.toList = q.1 := (congrArg String.toList heq).trans String.toList_ofList
            have hsplit := congrArg List.length (hname.symm.trans (Lib.splitOnce_eq_some hs))
            rw [List.length_append, List.length_cons] at hsplit
            omega
      intro flag b b' hb hb'
      simp only [Finset.mem_insert, Finset.mem_singleton, Prod.mk.injEq] at hb hb'
      rcases hb with ⟨h1, rfl⟩ | ⟨h1, rfl⟩ <;> rcases hb' with ⟨h2, rfl⟩ | ⟨h2, rfl⟩
      · rfl
      · rw [hsame (h1.symm.trans h2), Bool.or_true]
      · rw [hsame (h2.symm.trans h1), Bool.or_true]
      · rfl
    · split at ht
      · rw [List.mem_singleton.1 ht]
        exact hempty 1
      · simp only [List.mem_cons, List.not_mem_nil, or_false] at ht
        rcases ht with rfl | rfl
        · exact hempty 1
        · exact hempty 2

/-! ## Parses -/

/-- The last assignment of a flag in a list where it has one value, or none. -/
theorem foldl_assignment (requiredFlag : String) (l : List (String × Bool)) (acc : Option Bool) :
    ((∀ b, (requiredFlag, b) ∉ l) →
      l.foldl (fun next a => if a.1 = requiredFlag then some a.2 else next) acc = acc) ∧
    ∀ b, (∀ b', (requiredFlag, b') ∈ l → b' = b) → ((requiredFlag, b) ∈ l ∨ acc = some b) →
      l.foldl (fun next a => if a.1 = requiredFlag then some a.2 else next) acc = some b := by
  induction l generalizing acc with
  | nil => exact ⟨fun _ => rfl, fun b _ h => h.resolve_left List.not_mem_nil⟩
  | cons a l ih =>
    rw [List.foldl_cons]
    by_cases ha : a.1 = requiredFlag
    · have hmem : (requiredFlag, a.2) ∈ a :: l := by rw [← ha]; exact List.mem_cons_self
      rw [if_pos ha]
      refine ⟨fun hno => absurd hmem (hno a.2), fun b hb _ => ?_⟩
      exact (ih (some a.2)).2 b (fun b' hb' => hb b' (List.mem_cons_of_mem _ hb')) (.inr (congrArg some (hb a.2 hmem)))
    · have hmem : ∀ b, (requiredFlag, b) ∈ a :: l ↔ (requiredFlag, b) ∈ l := by
        intro b
        rw [List.mem_cons]
        exact or_iff_right (fun he => ha (congrArg Prod.fst he).symm)
      simp only [if_neg ha, hmem]
      exact ih acc

variable {requiredFlag : String}

/-- The resident takes the value a transition gives the flag, and keeps the last one where it gives none. -/
theorem nextAssignment_of_mem {t : OptionTransition} (ht : Functional t) {b : Bool}
    (hb : (requiredFlag, b) ∈ t.flagAssignments) (final : Option Bool) :
    Rust.nextAssignment requiredFlag final t = some b := by
  have hfind : (Rust.assignmentOrder.list t.flagAssignments).find? (fun a => a.1 == requiredFlag) =
      some (requiredFlag, b) := by
    cases hf : (Rust.assignmentOrder.list t.flagAssignments).find? (fun a => a.1 == requiredFlag) with
    | none =>
      exact absurd BEq.rfl (List.find?_eq_none.1 hf (requiredFlag, b) (Rust.assignmentOrder.mem_list.2 hb))
    | some a =>
      have hname : a.1 = requiredFlag := by simpa using List.find?_some hf
      have hmem := Rust.assignmentOrder.mem_list.1 (List.mem_of_find?_eq_some hf)
      have hbool : a.2 = b := ht requiredFlag a.2 b (by rw [← hname]; exact hmem) hb
      rw [← hname, ← hbool]
  rw [Rust.nextAssignment, hfind]
  rfl

theorem nextAssignment_of_notMem {t : OptionTransition}
    (hno : ∀ b, (requiredFlag, b) ∉ t.flagAssignments) (final : Option Bool) :
    Rust.nextAssignment requiredFlag final t = final := by
  have hfind : (Rust.assignmentOrder.list t.flagAssignments).find? (fun a => a.1 == requiredFlag) = none := by
    refine List.find?_eq_none.2 (fun a ha haf => hno a.2 ?_)
    have hname : a.1 = requiredFlag := by simpa using haf
    rw [← hname]
    exact Rust.assignmentOrder.mem_list.1 ha
  rw [Rust.nextAssignment, hfind]
  rfl

/-- Where no flag is assigned twice, the first and the last assignment of an iteration are the same. -/
theorem nextAssignment_eq {t : OptionTransition} (ht : Functional t) (requiredFlag : String) (final : Option Bool) :
    Rust.nextAssignment requiredFlag final t = Python.nextAssignment orders requiredFlag final t := by
  obtain ⟨hnone, hsome⟩ := foldl_assignment requiredFlag (orders.assignments.list t.flagAssignments) final
  by_cases hassigned : ∃ b, (requiredFlag, b) ∈ t.flagAssignments
  · obtain ⟨b, hb⟩ := hassigned
    rw [Python.nextAssignment, hsome b (fun b' hb' => ht _ _ _ (orders.assignments.mem_list.1 hb') hb)
      (.inl (orders.assignments.mem_list.2 hb)), nextAssignment_of_mem ht hb]
  · have hno : ∀ b, (requiredFlag, b) ∉ t.flagAssignments := fun b hb => hassigned ⟨b, hb⟩
    rw [Python.nextAssignment, hnone (fun b hb => hno b (orders.assignments.mem_list.1 hb)),
      nextAssignment_of_notMem hno]

theorem alike_transitions (hagree : Agree python rust argument) {σ : Type} (f g : OptionTransition → σ)
    (hfg : ∀ t ∈ (Rust.optionShape rust optionsWithValues knownFlags argument).transitions, f t = g t) :
    Visit.Alike (.go ((Rust.optionShape rust optionsWithValues knownFlags argument).transitions.map f) :
        Visit σ ParseOutcome)
      (.go ((Python.optionShape python orders optionsWithValues knownFlags argument).transitions.map g)) := by
  have hmem := (optionShape_alike orders optionsWithValues knownFlags hagree).2
  intro s
  simp only [List.mem_map]
  constructor
  · rintro ⟨t, ht, rfl⟩
    exact ⟨t, (hmem t).1 ht, (hfg t ht).symm⟩
  · rintro ⟨t, ht, rfl⟩
    exact ⟨t, (hmem t).2 ht, hfg t ((hmem t).2 ht)⟩

theorem argument_at {i : Nat} {argument : String} (h : arguments[i]? = some argument) :
    i < arguments.length ∧ argument ∈ arguments ∧ arguments.getD i "" = argument := by
  obtain ⟨hlt, -⟩ := List.getElem?_eq_some_iff.1 h
  refine ⟨hlt, List.mem_of_getElem? h, ?_⟩
  rw [List.getD_eq_getElem?_getD, h]
  rfl

theorem subcommandVisit_alike (hagree : ∀ a ∈ arguments, Agree python rust a)
    (subcommands : List String) (state : Nat × Nat) :
    Visit.Alike (Rust.subcommandVisit rust optionsWithValues knownFlags arguments subcommands state)
      (Python.subcommandVisit python orders optionsWithValues knownFlags arguments subcommands state) := by
  obtain ⟨i, j⟩ := state
  simp only [Rust.subcommandVisit, Python.subcommandVisit]
  split
  · rfl
  cases hi : arguments[i]? with
  | none =>
    rw [if_pos (List.getElem?_eq_none_iff.1 hi)]
    exact Visit.Alike.refl _
  | some argument =>
    obtain ⟨hlt, hmem, hgetD⟩ := argument_at hi
    have htake : (subcommands.drop j).isPrefixOf (arguments.drop (i + 1)) = true ↔
        (arguments.drop (i + 1)).take (subcommands.length - j) = subcommands.drop j := by
      rw [List.isPrefixOf_iff_prefix, List.prefix_iff_eq_take, List.length_drop]
      exact eq_comm
    simp only [if_neg (Nat.not_le.2 hlt), hgetD, isOption_eq, htake]
    split
    · exact Visit.Alike.refl _
    split
    · exact alike_transitions orders optionsWithValues knownFlags (hagree argument hmem) _ _ (fun _ _ => rfl)
    · exact Visit.Alike.refl _

theorem flagVisit_alike (hagree : ∀ a ∈ arguments, Agree python rust a) (requiredFlag : String)
    (state : Nat × Option Bool) :
    Visit.Alike (Rust.flagVisit rust optionsWithValues knownFlags arguments requiredFlag state)
      (Python.flagVisit python orders optionsWithValues knownFlags arguments requiredFlag state) := by
  obtain ⟨i, final⟩ := state
  simp only [Rust.flagVisit, Python.flagVisit]
  cases hi : arguments[i]? with
  | none =>
    have hend : arguments.length ≤ i ∨ (none : Option String) = some "--" := .inl (List.getElem?_eq_none_iff.1 hi)
    simp only [if_pos hend]
    exact Visit.Alike.refl _
  | some argument =>
    obtain ⟨hlt, hmem, hgetD⟩ := argument_at hi
    have hend : (arguments.length ≤ i ∨ some argument = some "--") ↔ argument = "--" := by
      rw [Option.some.injEq]
      exact or_iff_right (Nat.not_le.2 hlt)
    simp only [hend, hgetD, isOption_eq]
    split
    · exact Visit.Alike.refl _
    split
    · exact Visit.Alike.refl _
    · refine alike_transitions orders optionsWithValues knownFlags (hagree argument hmem) _ _ (fun t ht => ?_)
      rw [nextAssignment_eq orders (functional_optionShape optionsWithValues knownFlags argument t ht)]

/-- A search for subcommands stops at a match only. -/
theorem subcommandVisit_stop {subcommands : List String} {state : Nat × Nat} {outcome : ParseOutcome}
    (h : Rust.subcommandVisit rust optionsWithValues knownFlags arguments subcommands state = .stop outcome) :
    outcome = .matched := by
  simp only [Rust.subcommandVisit] at h
  repeat' split at h
  all_goals cases h
  all_goals rfl

/-- A search for a flag stops at a parse without it only. -/
theorem flagVisit_stop {state : Nat × Option Bool} {outcome : ParseOutcome}
    (h : Rust.flagVisit rust optionsWithValues knownFlags arguments requiredFlag state = .stop outcome) :
    outcome = .noMatch := by
  simp only [Rust.flagVisit] at h
  repeat' split at h
  all_goals cases h
  all_goals rfl

/-- A search that stops at matches only answers no exactly when it finishes. -/
theorem noMatch_iff_finished {σ : Type} [DecidableEq σ] {visit : σ → Visit σ ParseOutcome}
    (hstop : ∀ s outcome, visit s = .stop outcome → outcome = .matched) (limit : Nat) (start : σ) :
    (match explore limit visit false [start] ∅ with
      | .exhausted => ParseOutcome.uncertain
      | .stopped outcome => outcome
      | .finished _ => .noMatch) = .noMatch ↔ ∃ noted, explore limit visit false [start] ∅ = .finished noted := by
  cases hresult : explore limit visit false [start] ∅ with
  | exhausted => simp
  | stopped outcome =>
    obtain ⟨s, hs⟩ := Lib.explore_stopped hresult
    simp [hstop s outcome hs]
  | finished noted => simp

/-- A search that stops at parses without the flag only answers yes exactly when it finishes at one with it. -/
theorem matched_iff_finished {σ : Type} [DecidableEq σ] {visit : σ → Visit σ ParseOutcome}
    (hstop : ∀ s outcome, visit s = .stop outcome → outcome = .noMatch) (limit : Nat) (start : σ) :
    (match explore limit visit false [start] ∅ with
      | .exhausted => ParseOutcome.uncertain
      | .stopped outcome => outcome
      | .finished found => if found then .matched else .noMatch) = .matched ↔
      explore limit visit false [start] ∅ = .finished true := by
  cases hresult : explore limit visit false [start] ∅ with
  | exhausted => simp
  | stopped outcome =>
    obtain ⟨s, hs⟩ := Lib.explore_stopped hresult
    simp [hstop s outcome hs]
  | finished noted => cases noted <;> simp

theorem subcommandParseOutcome_eq_noMatch {subcommands : List String} {limit : Nat} :
    Rust.subcommandParseOutcome rust optionsWithValues knownFlags arguments subcommands limit = .noMatch ↔
      ∃ noted, explore limit (Rust.subcommandVisit rust optionsWithValues knownFlags arguments subcommands) false
        [(0, 0)] ∅ = .finished noted :=
  noMatch_iff_finished (fun _ _ => subcommandVisit_stop optionsWithValues knownFlags) limit (0, 0)

/-- **Subcommands match alike**: the answer is no exactly when the search finishes. -/
theorem matchesSubcommandsConservatively_eq (hagree : ∀ a ∈ arguments, Agree python rust a)
    (subcommands : List String) :
    Rust.matchesSubcommandsConservatively rust optionsWithValues knownFlags arguments subcommands =
      Python.matchesSubcommandsConservatively python orders optionsWithValues knownFlags arguments subcommands := by
  have halike := subcommandVisit_alike orders optionsWithValues knownFlags hagree subcommands
  have hpython := noMatch_iff_finished
    (fun s _ h => subcommandVisit_stop optionsWithValues knownFlags ((halike s).eq_stop_iff.2 h)) maxOptionParseStates
    (0, 0)
  have hiff := (subcommandParseOutcome_eq_noMatch optionsWithValues knownFlags).trans
    ((exists_congr (fun _ => Lib.explore_finished_congr halike)).trans hpython.symm)
  rw [Rust.matchesSubcommandsConservatively, Python.matchesSubcommandsConservatively, Bool.eq_iff_iff, bne_iff_ne,
    bne_iff_ne]
  exact not_congr hiff

theorem flagParseOutcome_eq_matched {required : String} {limit : Nat} :
    Rust.flagParseOutcome rust optionsWithValues knownFlags arguments required limit = .matched ↔
      explore limit (Rust.flagVisit rust optionsWithValues knownFlags arguments required) false [(0, none)] ∅ =
        .finished true :=
  matched_iff_finished (fun _ _ => flagVisit_stop optionsWithValues knownFlags) limit (0, none)

/-- **Flags are present alike**: the answer is yes exactly when every search finishes at a parse with the flag. -/
theorem flagsPresentInAllOptionParses_eq (hagree : ∀ a ∈ arguments, Agree python rust a)
    (requiredFlags : Finset String) :
    Rust.flagsPresentInAllOptionParses rust optionsWithValues knownFlags arguments requiredFlags =
      Python.flagsPresentInAllOptionParses python orders optionsWithValues knownFlags arguments requiredFlags := by
  have hone : ∀ required, Rust.flagParseOutcome rust optionsWithValues knownFlags arguments required
      maxOptionParseStates = .matched ↔
      Python.flagParseOutcome python orders optionsWithValues knownFlags arguments required = .matched := by
    intro required
    have halike := flagVisit_alike orders optionsWithValues knownFlags hagree required
    have hpython := matched_iff_finished
      (fun s _ h => flagVisit_stop optionsWithValues knownFlags ((halike s).eq_stop_iff.2 h)) maxOptionParseStates
      (0, none)
    exact (flagParseOutcome_eq_matched optionsWithValues knownFlags).trans
      ((Lib.explore_finished_congr halike).trans hpython.symm)
  rw [Rust.flagsPresentInAllOptionParses, Python.flagsPresentInAllOptionParses, Bool.eq_iff_iff, List.all_eq_true,
    List.all_eq_true]
  simp only [beq_iff_eq, hone, Enumeration.mem_list]

omit orders optionsWithValues knownFlags in
theorem sharedAdvance_eq_some {shape : OptionShape} {a : Nat} : Rust.OptionShape.sharedAdvance shape = some a ↔
    shape.fullyKnown = true ∧ (∃ t, t ∈ shape.transitions) ∧ ∀ t ∈ shape.transitions, t.advance = a := by
  obtain ⟨transitions, fullyKnown⟩ := shape
  cases transitions with
  | nil => simp [Rust.OptionShape.sharedAdvance]
  | cons first rest =>
    simp only [Rust.OptionShape.sharedAdvance, List.head?_cons, Option.ite_none_right_eq_some, Bool.and_eq_true,
      List.all_eq_true, beq_iff_eq, Option.some.injEq]
    constructor
    · rintro ⟨⟨hknown, hall⟩, rfl⟩
      exact ⟨hknown, ⟨first, List.mem_cons_self⟩, hall⟩
    · rintro ⟨hknown, -, hall⟩
      have hfirst := hall first List.mem_cons_self
      exact ⟨⟨hknown, fun t ht => (hall t ht).trans hfirst.symm⟩, hfirst⟩

omit orders optionsWithValues knownFlags in
theorem soleAdvance_eq_some {shape : OptionShape} {a : Nat} : Python.OptionShape.soleAdvance shape = some a ↔
    shape.fullyKnown = true ∧ (∃ t, t ∈ shape.transitions) ∧ ∀ t ∈ shape.transitions, t.advance = a := by
  have hmem : ∀ b, b ∈ (shape.transitions.map OptionTransition.advance).dedup ↔
      ∃ t ∈ shape.transitions, t.advance = b :=
    fun b => by rw [List.mem_dedup, List.mem_map]
  have hnodup := List.nodup_dedup (shape.transitions.map OptionTransition.advance)
  simp only [Python.OptionShape.soleAdvance, Option.ite_none_left_eq_some, Bool.or_eq_true, Bool.not_eq_true',
    bne_iff_ne, ne_eq, not_or, Bool.not_eq_false, not_not]
  generalize (shape.transitions.map OptionTransition.advance).dedup = advances at hmem hnodup
  constructor
  · rintro ⟨⟨hknown, hlength⟩, hhead⟩
    obtain ⟨b, rfl⟩ := List.length_eq_one_iff.1 hlength
    obtain rfl : b = a := Option.some.inj hhead
    obtain ⟨t, ht, -⟩ := (hmem b).1 List.mem_cons_self
    exact ⟨hknown, ⟨t, ht⟩, fun u hu => List.mem_singleton.1 ((hmem u.advance).2 ⟨u, hu, rfl⟩)⟩
  · rintro ⟨hknown, ⟨t, ht⟩, hall⟩
    -- a list without repetition whose elements are all `a`
    have hsole : advances = [a] := by
      have hta : a ∈ advances := (hmem a).2 ⟨t, ht, hall t ht⟩
      have hevery : ∀ b ∈ advances, b = a := by
        intro b hb
        obtain ⟨u, hu, rfl⟩ := (hmem b).1 hb
        exact hall u hu
      obtain ⟨n, hn⟩ : ∃ n, advances = List.replicate n a := ⟨advances.length, List.eq_replicate_of_mem hevery⟩
      rw [hn, List.nodup_replicate] at hnodup
      rw [hn] at hta
      have hpos : n ≠ 0 := (List.mem_replicate.1 hta).1
      rw [hn, Nat.le_antisymm hnodup (Nat.pos_of_ne_zero hpos)]
      rfl
    rw [hsole]
    exact ⟨⟨hknown, rfl⟩, rfl⟩

/-- **Known options advance alike.** -/
theorem knownOptionAdvance_eq (hagree : Agree python rust argument) :
    Rust.knownOptionAdvance rust optionsWithValues knownFlags argument =
      Python.knownOptionAdvance python orders optionsWithValues knownFlags argument := by
  obtain ⟨hknown, hmem⟩ := optionShape_alike orders optionsWithValues knownFlags hagree
  rw [Rust.knownOptionAdvance, Python.knownOptionAdvance, isOption_eq]
  split
  · rfl
  · refine Option.ext (fun a => ?_)
    rw [sharedAdvance_eq_some, soleAdvance_eq_some, hknown]
    simp only [hmem]

end

/-- **The resident and the reference give options the same semantics.**  For argument lists whose texts the two runtimes
classify and lower alike and for inverse pairs without a common name, in whatever order the hash sets come: the argument
semantics are equal, subcommands match alike, flags are present in all parses alike, and known options advance alike. -/
theorem rust_python_options_agree (python rust : CharTables) (orders : Python.SetOrders)
    (optionsWithValues knownFlags : Finset String) (pairs : Finset (String × String)) (arguments : List String)
    (hpairs : AliasDisjoint pairs) (hagree : ∀ a ∈ arguments, Agree python rust a) :
    Rust.argumentSemantics rust arguments optionsWithValues pairs =
      Python.argumentSemantics python orders arguments optionsWithValues pairs ∧
    (∀ subcommands, Rust.matchesSubcommandsConservatively rust optionsWithValues knownFlags arguments subcommands =
      Python.matchesSubcommandsConservatively python orders optionsWithValues knownFlags arguments subcommands) ∧
    (∀ required, Rust.flagsPresentInAllOptionParses rust optionsWithValues knownFlags arguments required =
      Python.flagsPresentInAllOptionParses python orders optionsWithValues knownFlags arguments required) ∧
    (∀ argument ∈ arguments, Rust.knownOptionAdvance rust optionsWithValues knownFlags argument =
      Python.knownOptionAdvance python orders optionsWithValues knownFlags argument) :=
  ⟨argumentSemantics_eq orders hagree optionsWithValues hpairs,
    matchesSubcommandsConservatively_eq orders optionsWithValues knownFlags hagree,
    flagsPresentInAllOptionParses_eq orders optionsWithValues knownFlags hagree,
    fun argument h => knownOptionAdvance_eq orders optionsWithValues knownFlags (hagree argument h)⟩

/-- Tables for ASCII and the characters a runtime counts as letters besides. -/
def sampleTables (others : List Char) : CharTables := ⟨fun c => Lib.isAsciiAlphanumeric c || others.contains c, id⟩

/-- Sets that come in the order opposite to the resident's. -/
def sampleOrders : Python.SetOrders :=
  ⟨Rust.assignmentOrder.reversed, Rust.transitionOrder.reversed, Rust.pairOrder.reversed, Rust.flagOrder.reversed⟩

/-- Texts without the other letters are texts on which the tables agree. -/
theorem agree_sampleTables {others : List Char} {text : String} (h : ∀ c ∈ text.toList, c ∉ others) :
    Agree (sampleTables others) (sampleTables []) text := by
  refine ⟨fun c hc => ?_, fun _ _ => rfl⟩
  have hother : others.contains c = false := by simpa using h c hc
  simp only [sampleTables, hother, List.contains_nil]

theorem rust_python_options_agree_sample :
    AliasDisjoint {("-n", "--no-dry-run")} ∧
    Rust.argumentSemantics (sampleTables []) ["-nf", "--output", "clean"] {"--output"} {("-n", "--no-dry-run")} =
      Python.argumentSemantics (sampleTables ['ä']) sampleOrders ["-nf", "--output", "clean"] {"--output"}
        {("-n", "--no-dry-run")} := by
  have hpairs : AliasDisjoint {("-n", "--no-dry-run")} := by decide
  have hagree : ∀ a ∈ ["-nf", "--output", "clean"], Agree (sampleTables ['ä']) (sampleTables []) a := by
    intro a ha
    refine agree_sampleTables ?_
    simp only [List.mem_cons, List.not_mem_nil, or_false] at ha
    rcases ha with rfl | rfl | rfl <;> simp
  exact ⟨hpairs, (rust_python_options_agree (sampleTables ['ä']) (sampleTables []) sampleOrders {"--output"} ∅
    {("-n", "--no-dry-run")} ["-nf", "--output", "clean"] hpairs hagree).1⟩

end Options
end Guard
