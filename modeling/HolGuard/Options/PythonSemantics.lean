import HolGuard.Options.RustSemantics
/-!
# Option semantics of the reference

`command_option_parsing.py`, which the resident's option semantics mirror.  Sets are hash sets: `SetOrders` is the order
in which this process happens to iterate over them.
-/
namespace Guard
namespace Options
namespace Python

open Lib (Enumeration KeyMap Visit SearchResult explore)

structure SetOrders where
  assignments : Enumeration (String × Bool)
  transitions : Enumeration OptionTransition
  pairs : Enumeration (String × String)
  flags : Enumeration String

def truthyFlagValues : List String := ["1", "on", "true", "yes"]

def falseyFlagValues : List String := ["0", "false", "no", "off"]

/-- `str.partition("=")`: the text before, whether there is a separator, the text after. -/
def partition (text : String) : String × Bool × String :=
  match Lib.splitOnce ['='] text.toList with
  | some (before, after) => (String.ofList before, true, String.ofList after)
  | none => (text, false, "")

/-! ## Argument semantics -/

structure EffectiveOption where
  name : String
  token : String
  value : Option String
  isValueOption : Bool
  positiveFlag : Option String
  negativeFlag : Option String
  positivePolarity : Bool
  deriving DecidableEq

/-- The flags, and the dictionary of effective options in insertion order. -/
structure Gathered where
  flags : Finset String
  effectiveOptions : KeyMap String EffectiveOption

def Gathered.addFlag (g : Gathered) (flag : String) : Gathered := { g with flags := insert flag g.flags }

def Gathered.assign (g : Gathered) (key : String) (option : EffectiveOption) : Gathered :=
  { g with effectiveOptions := g.effectiveOptions.insert key option }

def inverseAliases (orders : SetOrders) (pairs : Finset (String × String)) : InverseAliases :=
  (orders.pairs.list pairs).foldl
    (fun m q => [q.1, q.2].foldl (fun m a => m.insert a (q.1, q.2, a == q.1)) m) .empty

def booleanFlagValue (value : Option String) : Option Bool :=
  if value.all truthyFlagValues.contains then some true
  else if value.any falseyFlagValues.contains then some false
  else none

section

variable (tables : CharTables) (optionsWithValues : Finset String) (aliases : InverseAliases)

def gatherCluster : List Char → Gathered → Gathered
  | [], g => g
  | c :: cs, g =>
    if !tables.isAlnum c then gatherCluster cs g
    else
      let shortFlag := shortOption c
      let g := match aliases.get? shortFlag with
        | none => g.addFlag shortFlag
        | some (positive, negative, polarity) =>
          g.assign positive ⟨positive, shortFlag, none, false, some positive, some negative, polarity⟩
      if shortFlag ∈ optionsWithValues then g else gatherCluster cs g

/-- What an argument assigns or flags by itself; `following` is the argument after it. -/
def gatherOption (argument optionName : String) (separator : Bool) (optionValue : String) (following : Option String)
    (g : Gathered) : Gathered :=
  let isLongOption := startsWith "--" argument
  let isValueOption := decide (optionName ∈ optionsWithValues)
  let inverseAlias := aliases.get? optionName
  if isLongOption || inverseAlias.isSome then
    let optionValue := if isValueOption && !separator then following.getD "" else optionValue
    let effectiveName := (inverseAlias.map (fun p => p.1)).getD optionName
    g.assign effectiveName ⟨effectiveName, argument, if separator || isValueOption then some optionValue else none,
      isValueOption, inverseAlias.map (fun p => p.1), inverseAlias.map (fun p => p.2.1),
      (inverseAlias.map (fun p => p.2.2)).getD true⟩
  else
    let g := g.addFlag argument
    if startsWith "-" argument && separator then g.addFlag optionName else g

def gatherArgument (argument : String) (following : Option String) (g : Gathered) : Gathered :=
  let (optionName, separator, optionValue) := partition argument
  let g := gatherOption optionsWithValues aliases argument optionName separator optionValue following g
  if (aliases.get? optionName).isNone && startsWith "-" optionName && !startsWith "--" optionName then
    gatherCluster tables optionsWithValues aliases (optionName.toList.drop 1) g
  else g

def gather : List String → Gathered → Gathered
  | [], g => g
  | argument :: rest, g =>
    if argument = "--" then g
    else
      let optionName := (partition argument).1
      let g := gatherArgument tables optionsWithValues aliases argument rest.head? g
      if optionName ∈ optionsWithValues ∧ '=' ∉ argument.toList then gather (rest.drop 1) g else gather rest g
termination_by arguments => arguments.length

end

/-- The flags an effective option stands for. -/
def presentFlags (flags : Finset String) (option : EffectiveOption) : Finset String :=
  let flags := insert option.token flags
  match option.positiveFlag, option.negativeFlag with
  | some positive, some negative =>
    match booleanFlagValue option.value with
    | none => flags
    | some assigned =>
      let enabled := if option.positivePolarity then assigned else !assigned
      insert (if enabled then positive else negative) flags
  | _, _ =>
    if option.isValueOption || option.value.isNone || option.value.any truthyFlagValues.contains then
      insert option.name flags
    else flags

def argumentSemantics (tables : CharTables) (orders : SetOrders) (arguments : List String)
    (optionsWithValues : Finset String) (inverseFlagPairs : Finset (String × String)) : ArgumentSemantics :=
  let g := gather tables optionsWithValues (inverseAliases orders inverseFlagPairs) arguments ⟨∅, .empty⟩
  ⟨(g.effectiveOptions.pairs.map (fun q => q.2)).foldl presentFlags g.flags,
    g.effectiveOptions.pairs.map (fun q => (q.1, q.2.token, q.2.value))⟩

/-! ## Option shapes -/

def isOption (argument : String) : Bool := decide (1 < argument.toList.length) && startsWith "-" argument

section

variable (tables : CharTables) (orders : SetOrders) (optionsWithValues knownFlags : Finset String)

def longFlagAssignmentIsEnabled (argument : String) : Bool :=
  let (_, separator, value) := partition argument
  !separator || truthyFlagValues.contains (tables.lower value)

/-- The loop of `_short_option_shape`: `index` is the place of the next character in the argument. -/
def shortCluster (length : Nat) : Nat → List Char → Finset OptionTransition → Finset String → Bool →
    Finset OptionTransition × Bool
  | _, [], transitions, flags, fullyKnown => (insert (optionWithFlags 1 flags) transitions, fullyKnown)
  | index, c :: cs, transitions, flags, fullyKnown =>
    let short := shortOption c
    if short ∈ optionsWithValues then
      (insert (optionWithFlags (if index + 1 < length then 1 else 2) flags) transitions, fullyKnown)
    else if short ∈ knownFlags then shortCluster length (index + 1) cs transitions (insert short flags) fullyKnown
    else
      let transitions := insert (optionWithFlags 1 flags) transitions
      let transitions := if index + 1 = length then insert (optionWithFlags 2 flags) transitions else transitions
      shortCluster length (index + 1) cs transitions flags false

def shortOptionShape (argument : String) : OptionShape :=
  let (transitions, fullyKnown) :=
    shortCluster optionsWithValues knownFlags argument.toList.length 1 (argument.toList.drop 1) ∅ ∅ true
  ⟨orders.transitions.list transitions, fullyKnown⟩

def optionShape (argument : String) : OptionShape :=
  if startsWith "--" argument then
    let (optionName, separator, _) := partition argument
    if optionName ∈ optionsWithValues then
      ⟨[⟨if separator then 1 else 2, {(argument, true), (optionName, true)}⟩], true⟩
    else if optionName ∈ knownFlags then
      ⟨[⟨1, {(argument, true), (optionName, longFlagAssignmentIsEnabled tables argument)}⟩], true⟩
    else if separator then ⟨[⟨1, ∅⟩], true⟩
    else ⟨[⟨1, ∅⟩, ⟨2, ∅⟩], false⟩
  else shortOptionShape orders optionsWithValues knownFlags argument

/-- The one element of the set of advances, where the shape is known. -/
def OptionShape.soleAdvance (shape : OptionShape) : Option Nat :=
  let advances := (shape.transitions.map OptionTransition.advance).dedup
  if !shape.fullyKnown || advances.length != 1 then none else advances.head?

def knownOptionAdvance (argument : String) : Option Nat :=
  if !isOption argument then none
  else OptionShape.soleAdvance (optionShape tables orders optionsWithValues knownFlags argument)

/-! ## Parses -/

def subcommandVisit (arguments subcommands : List String) : Nat × Nat → Visit (Nat × Nat) ParseOutcome
  | (argumentIndex, subcommandIndex) =>
    if subcommandIndex = subcommands.length then .stop .matched
    else if arguments.length ≤ argumentIndex then .go []
    else
      let argument := arguments.getD argumentIndex ""
      if argument = "--" then
        let remaining := subcommands.length - subcommandIndex
        if (arguments.drop (argumentIndex + 1)).take remaining = subcommands.drop subcommandIndex then .stop .matched
        else .go []
      else if isOption argument then
        .go ((optionShape tables orders optionsWithValues knownFlags argument).transitions.map
          (fun t => (argumentIndex + t.advance, subcommandIndex)))
      else if subcommands[subcommandIndex]? = some argument then .go [(argumentIndex + 1, subcommandIndex + 1)]
      else .go []

def subcommandParseOutcome (arguments subcommands : List String) : ParseOutcome :=
  match explore maxOptionParseStates (subcommandVisit tables orders optionsWithValues knownFlags arguments subcommands)
    false [(0, 0)] ∅ with
  | .exhausted => .uncertain
  | .stopped outcome => outcome
  | .finished _ => .noMatch

def matchesSubcommandsConservatively (arguments subcommands : List String) : Bool :=
  subcommandParseOutcome tables orders optionsWithValues knownFlags arguments subcommands != .noMatch

def nextAssignment (requiredFlag : String) (final : Option Bool) (t : OptionTransition) : Option Bool :=
  (orders.assignments.list t.flagAssignments).foldl (fun next a => if a.1 = requiredFlag then some a.2 else next) final

def flagVisit (arguments : List String) (requiredFlag : String) :
    Nat × Option Bool → Visit (Nat × Option Bool) ParseOutcome
  | (argumentIndex, finalAssignment) =>
    if arguments.length ≤ argumentIndex ∨ arguments[argumentIndex]? = some "--" then
      if finalAssignment ≠ some true then .stop .noMatch else .note
    else
      let argument := arguments.getD argumentIndex ""
      if !isOption argument then .go [(argumentIndex + 1, finalAssignment)]
      else .go ((optionShape tables orders optionsWithValues knownFlags argument).transitions.map
        (fun t => (argumentIndex + t.advance, nextAssignment orders requiredFlag finalAssignment t)))

def flagParseOutcome (arguments : List String) (requiredFlag : String) : ParseOutcome :=
  match explore maxOptionParseStates (flagVisit tables orders optionsWithValues knownFlags arguments requiredFlag)
    false [(0, none)] ∅ with
  | .exhausted => .uncertain
  | .stopped outcome => outcome
  | .finished foundTerminal => if foundTerminal then .matched else .noMatch

def flagsPresentInAllOptionParses (arguments : List String) (requiredFlags : Finset String) : Bool :=
  (orders.flags.list requiredFlags).all (fun required =>
    flagParseOutcome tables orders optionsWithValues knownFlags arguments required == .matched)

end

end Python
end Options
end Guard
