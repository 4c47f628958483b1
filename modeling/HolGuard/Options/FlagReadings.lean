import HolGuard.Options.Readings
/-!
# What the search for a safety flag decides

The memoised search of `flags_present_in_all_option_parses` keeps, for each argument index, the values a flag may have
last been given.  It says yes exactly when every reading of the command line gives the flag last the value true, within
the budget of states.
-/
namespace Guard
namespace Options

open Lib (Visit SearchResult explore Reaches)

section Flags

variable {tables : CharTables} {optionsWithValues knownFlags : Finset String} {arguments : List String} {flag : String}

/-! ## Assignments -/

theorem lastAssignment_append (flag : String) (before after : List (String × Bool)) :
    lastAssignment flag (before ++ after) = (lastAssignment flag after).or (lastAssignment flag before) := by
  unfold lastAssignment
  rw [List.filter_append, List.getLast?_append]
  cases (after.filter (fun a => a.1 = flag)).getLast? <;> rfl

variable {assigned : List (String × Bool)}

theorem mem_of_lastAssignment {b : Bool} (h : lastAssignment flag assigned = some b) :
    (flag, b) ∈ assigned := by
  obtain ⟨a, ha, rfl⟩ := Option.map_eq_some_iff.1 h
  obtain ⟨hmem, hname⟩ := List.mem_filter.1 (List.mem_of_getLast? ha)
  have hflag : a.1 = flag := by simpa using hname
  rw [← hflag]
  exact hmem

theorem notMem_of_lastAssignment (h : lastAssignment flag assigned = none) (b : Bool) :
    (flag, b) ∉ assigned := by
  intro hmem
  have hnil := List.getLast?_eq_none_iff.1 (Option.map_eq_none_iff.1 h)
  have hfilter : (flag, b) ∈ assigned.filter (fun a => a.1 = flag) := List.mem_filter.2 ⟨hmem, by simp⟩
  rw [hnil] at hfilter
  cases hfilter

variable {argument : String}

/-- **A transition sets a flag as the reading it comes from does.** -/
theorem nextAssignment_optionReads {n : Nat} {here : List (String × Bool)}
    (hreads : OptionReads tables optionsWithValues knownFlags argument n here) (last : Option Bool) :
    Rust.nextAssignment flag last ⟨n, here.toFinset⟩ = (lastAssignment flag here).or last := by
  have hfunctional := functional_optionShape optionsWithValues knownFlags argument _
    ((mem_optionShape argument _).2 ⟨n, here, hreads, rfl⟩)
  cases hlast : lastAssignment flag here with
  | none =>
    refine nextAssignment_of_notMem (fun b hb => ?_) last
    exact notMem_of_lastAssignment hlast b (List.mem_toFinset.1 hb)
  | some b =>
    rw [nextAssignment_of_mem hfunctional (List.mem_toFinset.2 (mem_of_lastAssignment hlast)) last]
    rfl

/-! ## The states of the search -/

/-- Where reading ends: past the last argument or at the terminator. -/
def AtEnd (arguments : List String) (i : Nat) : Prop := ∀ argument, arguments[i]? = some argument → argument = "--"

/-- What a visit does: it ends at the end of a reading, and goes on with the readings of the argument elsewhere. -/
theorem flagVisit_atEnd {i : Nat} (last : Option Bool) (h : AtEnd arguments i) :
    Rust.flagVisit tables optionsWithValues knownFlags arguments flag (i, last) =
      if last ≠ some true then .stop .noMatch else .note := by
  rw [Rust.flagVisit]
  cases hargument : arguments[i]? with
  | none => rfl
  | some argument => simp [h argument hargument]

theorem flagVisit_word {i : Nat} (last : Option Bool) (hargument : arguments[i]? = some argument)
    (hterminator : argument ≠ "--") (hoption : Rust.isOption argument = false) :
    Rust.flagVisit tables optionsWithValues knownFlags arguments flag (i, last) = .go [(i + 1, last)] := by
  simp [Rust.flagVisit, hargument, hterminator, hoption]

theorem flagVisit_option {i : Nat} (last : Option Bool) (hargument : arguments[i]? = some argument)
    (hterminator : argument ≠ "--") (hoption : Rust.isOption argument = true) :
    Rust.flagVisit tables optionsWithValues knownFlags arguments flag (i, last) =
      .go ((Rust.optionShape tables optionsWithValues knownFlags argument).transitions.map
        (fun t => (i + t.advance, Rust.nextAssignment flag last t))) := by
  simp [Rust.flagVisit, hargument, hterminator, hoption]

theorem atEnd_or (arguments : List String) (i : Nat) : AtEnd arguments i ∨
    ∃ argument, arguments[i]? = some argument ∧ argument ≠ "--" := by
  by_cases h : AtEnd arguments i
  · exact .inl h
  · rw [AtEnd] at h
    push Not at h
    exact .inr h

/-- The search visits exactly the states of readings: it ends early at ends of readings only. -/
theorem reaches_iff_flagState {s : Nat × Option Bool} :
    Reaches (Rust.flagVisit tables optionsWithValues knownFlags arguments flag) (0, none) s ↔
      FlagState tables optionsWithValues knownFlags arguments flag s := by
  constructor
  · intro h
    induction h with
    | refl => exact .start
    | tail _ hstep ih =>
      rename_i a b _
      obtain ⟨i, last⟩ := a
      obtain ⟨next, hnext, hb⟩ := hstep
      rcases atEnd_or arguments i with hend | ⟨argument, hargument, hterminator⟩
      · rw [flagVisit_atEnd last hend] at hnext
        split at hnext <;> cases hnext
      cases hoption : Rust.isOption argument with
      | false =>
        rw [flagVisit_word last hargument hterminator hoption] at hnext
        cases hnext
        rw [List.mem_singleton.1 hb]
        exact .word ih hargument hterminator hoption
      | true =>
        rw [flagVisit_option last hargument hterminator hoption] at hnext
        cases hnext
        obtain ⟨t, ht, rfl⟩ := List.mem_map.1 hb
        obtain ⟨n, here, hreads, rfl⟩ := (mem_optionShape argument t).1 ht
        simp only [nextAssignment_optionReads hreads]
        exact .option ih hargument hterminator hoption hreads
  · intro h
    induction h with
    | start => exact .refl
    | @word i last argument _ hargument hterminator hoption ih =>
      exact ih.tail ⟨_, flagVisit_word last hargument hterminator hoption, List.mem_cons_self⟩
    | @option i n last argument here _ hargument hterminator hoption hreads ih =>
      refine ih.tail
        ⟨_, flagVisit_option last hargument hterminator hoption, List.mem_map.2 ⟨⟨n, here.toFinset⟩, ?_, ?_⟩⟩
      · exact (mem_optionShape argument _).2 ⟨n, here, hreads, rfl⟩
      · simp only [nextAssignment_optionReads hreads]

/-! ## Ends of readings -/

/-- A reading of the rest, from a state, is the rest of a reading of the whole list. -/
theorem reading_of_flagState {s : Nat × Option Bool}
    (h : FlagState tables optionsWithValues knownFlags arguments flag s) {words : List String}
    {tail : Option (List String)}
    (hrest : Reading tables optionsWithValues knownFlags (arguments.drop s.1) words assigned tail) :
    ∃ words' assigned' tail', Reading tables optionsWithValues knownFlags arguments words' assigned' tail' ∧
      lastAssignment flag assigned' = (lastAssignment flag assigned).or s.2 := by
  induction h generalizing words assigned tail with
  | start => exact ⟨words, assigned, tail, hrest, by simp⟩
  | word _ hargument hterminator hoption ih =>
    have hfrom := Reading.word hterminator hoption hrest
    rw [← drop_eq_cons_of_getElem? hargument] at hfrom
    exact ih hfrom
  | @option i n last argument here _ hargument hterminator hoption hreads ih =>
    have hdrop : arguments.drop (i + n) = (argument :: arguments.drop (i + 1)).drop n := by
      rw [← drop_eq_cons_of_getElem? hargument, List.drop_drop]
    simp only at hrest ⊢
    rw [hdrop] at hrest
    have hfrom := Reading.option hterminator hoption hreads hrest
    rw [← drop_eq_cons_of_getElem? hargument] at hfrom
    obtain ⟨words', assigned', tail', hreading, hlast⟩ := ih hfrom
    exact ⟨words', assigned', tail', hreading, by rw [hlast, lastAssignment_append, Option.or_assoc]⟩

theorem flagState_of_reading {args words : List String} {tail : Option (List String)}
    (hreading : Reading tables optionsWithValues knownFlags args words assigned tail) :
    ∀ i last, args = arguments.drop i → FlagState tables optionsWithValues knownFlags arguments flag (i, last) →
      ∃ i', AtEnd arguments i' ∧ FlagState tables optionsWithValues knownFlags arguments flag
        (i', (lastAssignment flag assigned).or last) := by
  induction hreading with
  | done =>
    intro i last hargs hstate
    refine ⟨i, fun argument hargument => ?_, hstate⟩
    rw [drop_eq_cons_of_getElem? hargument] at hargs
    cases hargs
  | terminator rest =>
    intro i last hargs hstate
    refine ⟨i, fun argument hargument => ?_, hstate⟩
    rw [(getElem?_of_drop_eq_cons hargs.symm).1] at hargument
    exact (Option.some.inj hargument).symm
  | word hterminator hoption _ ih =>
    intro i last hargs hstate
    obtain ⟨hget, hrest⟩ := getElem?_of_drop_eq_cons hargs.symm
    exact ih (i + 1) last hrest (.word hstate hget hterminator hoption)
  | @option argument rest words n here assigned tail hterminator hoption hreads _ ih =>
    intro i last hargs hstate
    obtain ⟨hget, -⟩ := getElem?_of_drop_eq_cons hargs.symm
    rw [lastAssignment_append, Option.or_assoc]
    refine ih (i + n) _ ?_ (.option hstate hget hterminator hoption hreads)
    rw [hargs, List.drop_drop]

theorem reading_at_end {i : Nat} (h : AtEnd arguments i) :
    ∃ tail, Reading tables optionsWithValues knownFlags (arguments.drop i) [] [] tail := by
  cases hargument : arguments[i]? with
  | none =>
    rw [List.drop_eq_nil_iff.2 (List.getElem?_eq_none_iff.1 hargument)]
    exact ⟨none, .done⟩
  | some argument =>
    rw [drop_eq_cons_of_getElem? hargument, h argument hargument]
    exact ⟨_, .terminator _⟩

/-- **Every reading assigns the flag last to true exactly if every state at an end holds true.** -/
theorem alwaysAssigned_iff : AlwaysAssigned tables optionsWithValues knownFlags arguments flag ↔
    ∀ i last, FlagState tables optionsWithValues knownFlags arguments flag (i, last) → AtEnd arguments i →
      last = some true := by
  constructor
  · intro halways i last hstate hend
    obtain ⟨tail, hrest⟩ : ∃ tail, Reading tables optionsWithValues knownFlags (arguments.drop i) [] [] tail :=
      reading_at_end hend
    obtain ⟨words, assigned, tail', hreading, hlast⟩ := reading_of_flagState hstate hrest
    rw [halways words assigned tail' hreading] at hlast
    exact hlast.symm
  · intro hstates words assigned tail hreading
    obtain ⟨i, hend, hstate⟩ := flagState_of_reading hreading 0 none rfl .start
    rw [Option.or_none] at hstate
    exact hstates i _ hstate hend

/-- **When the search finds the flag**: every reading assigns it last to true, and the states fit the budget. -/
theorem flag_search_found_iff (limit : Nat) :
    explore limit (Rust.flagVisit tables optionsWithValues knownFlags arguments flag) false [(0, none)] ∅ =
        .finished true ↔
      AlwaysAssigned tables optionsWithValues knownFlags arguments flag ∧
        {s | FlagState tables optionsWithValues knownFlags arguments flag s}.encard ≤ limit := by
  rw [Lib.explore_finished_iff, alwaysAssigned_iff, Lib.encard_le_iff]
  simp only [reaches_iff_flagState, true_iff, Set.mem_ofPred_eq]
  constructor
  · rintro ⟨hcalm, hbound, -⟩
    refine ⟨fun i last hstate hend => ?_, hbound⟩
    by_contra hlast
    exact hcalm _ hstate .noMatch (by rw [flagVisit_atEnd last hend, if_pos hlast])
  · rintro ⟨hends, hbound⟩
    refine ⟨?_, hbound, ?_⟩
    · -- a state that stops the search is at an end without the flag
      rintro ⟨i, last⟩ hstate v hstop
      rcases atEnd_or arguments i with hend | ⟨argument, hargument, hterminator⟩
      · rw [flagVisit_atEnd last hend, hends i last hstate hend] at hstop
        simp at hstop
      cases hoption : Rust.isOption argument with
      | false =>
        rw [flagVisit_word last hargument hterminator hoption] at hstop
        cases hstop
      | true =>
        rw [flagVisit_option last hargument hterminator hoption] at hstop
        cases hstop
    · -- some reading exists, and the search notes its end
      obtain ⟨words, assigned, tail, hreading⟩ : ∃ words assigned tail,
          Reading tables optionsWithValues knownFlags arguments words assigned tail := exists_reading arguments
      obtain ⟨i, hend, hstate⟩ := flagState_of_reading hreading 0 none rfl .start
      refine ⟨_, hstate, ?_⟩
      rw [flagVisit_atEnd _ hend, if_neg (not_not.2 (hends i _ hstate hend))]

/-- **A flag counts as present exactly when every reading sets it last.**  Each required flag is given last the value
true under every choice of arities, and its states number at most 16384; the reference gives the same answer, and so
does a search that pushes transitions in another order. -/
theorem flags_present_iff (tables : CharTables) (orders : Python.SetOrders)
    (optionsWithValues knownFlags : Finset String) (arguments : List String) (requiredFlags : Finset String) :
    (Rust.flagsPresentInAllOptionParses tables optionsWithValues knownFlags arguments requiredFlags = true ↔
      ∀ flag ∈ requiredFlags, AlwaysAssigned tables optionsWithValues knownFlags arguments flag ∧
        {s | FlagState tables optionsWithValues knownFlags arguments flag s}.encard ≤ 16384) ∧
    Python.flagsPresentInAllOptionParses tables orders optionsWithValues knownFlags arguments requiredFlags =
      Rust.flagsPresentInAllOptionParses tables optionsWithValues knownFlags arguments requiredFlags ∧
    ∀ visit : String → Nat × Option Bool → Visit (Nat × Option Bool) ParseOutcome,
      (∀ flag s, (Rust.flagVisit tables optionsWithValues knownFlags arguments flag s).Alike (visit flag s)) →
      ((∀ flag ∈ requiredFlags, explore maxOptionParseStates (visit flag) false [(0, none)] ∅ = .finished true) ↔
        Rust.flagsPresentInAllOptionParses tables optionsWithValues knownFlags arguments requiredFlags = true) := by
  have hanswer : Rust.flagsPresentInAllOptionParses tables optionsWithValues knownFlags arguments requiredFlags = true ↔
      ∀ flag ∈ requiredFlags, explore maxOptionParseStates
        (Rust.flagVisit tables optionsWithValues knownFlags arguments flag) false [(0, none)] ∅ = .finished true := by
    rw [Rust.flagsPresentInAllOptionParses, List.all_eq_true]
    simp only [Lib.Enumeration.mem_list, beq_iff_eq, flagParseOutcome_eq_matched]
  refine ⟨hanswer.trans ?_, ?_, fun visit halike => ?_⟩
  · exact forall₂_congr (fun flag _ => flag_search_found_iff maxOptionParseStates)
  · exact (flagsPresentInAllOptionParses_eq orders optionsWithValues knownFlags (fun a _ => agree_self a)
      requiredFlags).symm
  · rw [hanswer]
    exact forall₂_congr (fun flag _ => (Lib.explore_finished_congr (halike flag)).symm)

end Flags

end Options
end Guard
