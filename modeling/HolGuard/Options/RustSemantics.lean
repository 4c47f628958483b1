import HolGuard.Lib.Enumeration
import HolGuard.Lib.KeyMap
import HolGuard.Lib.Text
import HolGuard.Lib.Worklist
/-!
# Option semantics of the resident

`command_argument_semantics.rs` and `command_option_parsing.rs`: which flags an argument list has and which assignment
of each option counts, and the bounded search over the ways an argument list can be split into options and operands.
Sets are iterated in the order of their elements.  The character tables of the runtime are a parameter; there is no
deadline.
-/
namespace Guard
namespace Options

open Lib (Enumeration KeyMap Visit SearchResult explore)

/-- What a runtime knows of characters: `isalnum`, and lower case. -/
structure CharTables where
  isAlnum : Char → Bool
  lower : String → String

structure ArgumentSemantics where
  presentFlags : Finset String
  effectiveOptions : List (String × String × Option String)
  deriving DecidableEq

inductive ParseOutcome where
  | matched
  | noMatch
  | uncertain
  deriving DecidableEq

structure OptionTransition where
  advance : Nat
  flagAssignments : Finset (String × Bool)
  deriving DecidableEq

structure OptionShape where
  transitions : List OptionTransition
  fullyKnown : Bool

/-- For each alias the pair it belongs to, and whether it is the positive one. -/
abbrev InverseAliases := KeyMap String (String × String × Bool)

def maxOptionParseStates : Nat := 16384

def startsWith (start text : String) : Bool := start.toList.isPrefixOf text.toList

def shortOption (c : Char) : String := String.ofList ['-', c]

def optionWithFlags (advance : Nat) (flags : Finset String) : OptionTransition :=
  ⟨advance, flags.image (fun flag => (flag, true))⟩

namespace Rust

/-! ## The order of the ordered sets -/

def assignmentOrder : Enumeration (String × Bool) := .sorted toLex toLex.injective

theorem transitionKey_injective : Function.Injective (fun t : OptionTransition =>
    toLex (t.advance, (assignmentOrder.list t.flagAssignments).map toLex)) := by
  intro s t h
  obtain ⟨hadvance, hlist⟩ := Prod.mk.inj (toLex.injective h)
  have hassignments : s.flagAssignments = t.flagAssignments := by
    ext a
    rw [← assignmentOrder.mem_list, ← assignmentOrder.mem_list, List.map_injective_iff.2 toLex.injective hlist]
  cases s
  cases t
  exact congrArg₂ OptionTransition.mk hadvance hassignments

def transitionOrder : Enumeration OptionTransition := .sorted _ transitionKey_injective

def pairOrder : Enumeration (String × String) := .sorted toLex toLex.injective

def flagOrder : Enumeration String := .sorted id Function.injective_id

/-! ## Argument semantics -/

structure EffectiveOption where
  name : String
  token : String
  value : Option String
  isValueOption : Bool
  inversePair : Option (String × String × Bool)
  deriving DecidableEq

/-- The options in the order they first came, and the place of each name. -/
structure Assigned where
  options : List EffectiveOption
  indices : KeyMap String Nat

structure Gathered where
  flags : Finset String
  assigned : Assigned

def partitionAssignment (argument : String) : String × Option String :=
  match Lib.splitOnce ['='] argument.toList with
  | some (name, value) => (String.ofList name, some (String.ofList value))
  | none => (argument, none)

def isTruthy (value : String) : Bool := ["1", "on", "true", "yes"].contains value

def booleanFlagValue : Option String → Option Bool
  | none => some true
  | some value =>
    if isTruthy value then some true
    else if ["0", "false", "no", "off"].contains value then some false
    else none

def inverseAliases (pairs : Finset (String × String)) : InverseAliases :=
  (pairOrder.list pairs).foldl
    (fun m q => (m.insert q.1 (q.1, q.2, true)).insert q.2 (q.1, q.2, false)) .empty

def assignEffectiveOption (a : Assigned) (option : EffectiveOption) : Assigned :=
  match a.indices.get? option.name with
  | some index => { a with options := a.options.set index option }
  | none => ⟨a.options ++ [option], a.indices.insert option.name a.options.length⟩

def Gathered.addFlag (g : Gathered) (flag : String) : Gathered := { g with flags := insert flag g.flags }

def Gathered.assign (g : Gathered) (option : EffectiveOption) : Gathered :=
  { g with assigned := assignEffectiveOption g.assigned option }

section

variable (tables : CharTables) (optionsWithValues : Finset String) (aliases : InverseAliases)

/-- The cluster of short flags in an option name. -/
def gatherCluster : List Char → Gathered → Gathered
  | [], g => g
  | c :: cs, g =>
    if !tables.isAlnum c then gatherCluster cs g
    else
      let g := match aliases.get? (shortOption c) with
        | some (positive, negative, polarity) =>
          g.assign ⟨positive, shortOption c, none, false, some (positive, negative, polarity)⟩
        | none => g.addFlag (shortOption c)
      -- the rest of the cluster is the value of this option
      if shortOption c ∈ optionsWithValues then g else gatherCluster cs g

/-- What an argument assigns or flags by itself; `following` is the argument after it. -/
def gatherOption (argument optionName : String) (inlineValue following : Option String) (g : Gathered) : Gathered :=
  let isValueOption := decide (optionName ∈ optionsWithValues)
  let inverseAlias := aliases.get? optionName
  if startsWith "--" argument || inverseAlias.isSome then
    let value := match inlineValue with
      | some value => some value
      | none => if isValueOption then some (following.getD "") else none
    g.assign ⟨(inverseAlias.map (fun p => p.1)).getD optionName, argument, value, isValueOption, inverseAlias⟩
  else
    let g := g.addFlag argument
    if startsWith "-" argument && inlineValue.isSome then g.addFlag optionName else g

def gatherArgument (argument : String) (following : Option String) (g : Gathered) : Gathered :=
  let (optionName, inlineValue) := partitionAssignment argument
  let g := gatherOption optionsWithValues aliases argument optionName inlineValue following g
  if (aliases.get? optionName).isNone && startsWith "-" optionName && !startsWith "--" optionName then
    gatherCluster tables optionsWithValues aliases (optionName.toList.drop 1) g
  else g

def gather : List String → Gathered → Gathered
  | [], g => g
  | argument :: rest, g =>
    if argument = "--" then g
    else
      let (optionName, inlineValue) := partitionAssignment argument
      let g := gatherArgument tables optionsWithValues aliases argument rest.head? g
      if optionName ∈ optionsWithValues ∧ inlineValue.isNone then gather (rest.drop 1) g else gather rest g
termination_by arguments => arguments.length

end

def presentFlags (flags : Finset String) (option : EffectiveOption) : Finset String :=
  let flags := insert option.token flags
  match option.inversePair with
  | some (positive, negative, polarity) =>
    match booleanFlagValue option.value with
    | some assigned => insert (if assigned = polarity then positive else negative) flags
    | none => flags
  | none =>
    if option.isValueOption || option.value.isNone || option.value.any isTruthy then insert option.name flags else flags

def argumentSemantics (tables : CharTables) (arguments : List String) (optionsWithValues : Finset String)
    (inverseFlagPairs : Finset (String × String)) : ArgumentSemantics :=
  let g := gather tables optionsWithValues (inverseAliases inverseFlagPairs) arguments ⟨∅, ⟨[], .empty⟩⟩
  ⟨g.assigned.options.foldl presentFlags g.flags, g.assigned.options.map (fun o => (o.name, o.token, o.value))⟩

/-! ## Option shapes -/

def isOption (argument : String) : Bool := decide (1 < argument.utf8ByteSize) && startsWith "-" argument

section

variable (tables : CharTables) (optionsWithValues knownFlags : Finset String)

def longFlagAssignmentIsEnabled (argument : String) : Bool :=
  (partitionAssignment argument).2.all (fun value => isTruthy (tables.lower value))

/-- The cluster of a short option, with the transitions and flags so far. -/
def shortCluster : List Char → Finset OptionTransition → Finset String → Bool → Finset OptionTransition × Bool
  | [], transitions, flags, fullyKnown => (insert (optionWithFlags 1 flags) transitions, fullyKnown)
  | c :: cs, transitions, flags, fullyKnown =>
    if shortOption c ∈ optionsWithValues then
      (insert (optionWithFlags (if cs.isEmpty then 2 else 1) flags) transitions, fullyKnown)
    else if shortOption c ∈ knownFlags then shortCluster cs transitions (insert (shortOption c) flags) fullyKnown
    else
      let transitions := insert (optionWithFlags 1 flags) transitions
      let transitions := if cs.isEmpty then insert (optionWithFlags 2 flags) transitions else transitions
      shortCluster cs transitions flags false

def shortOptionShape (argument : String) : OptionShape :=
  let (transitions, fullyKnown) := shortCluster optionsWithValues knownFlags (argument.toList.drop 1) ∅ ∅ true
  ⟨transitionOrder.list transitions, fullyKnown⟩

def optionShape (argument : String) : OptionShape :=
  if !startsWith "--" argument then shortOptionShape optionsWithValues knownFlags argument
  else
    let (optionName, value) := partitionAssignment argument
    if optionName ∈ optionsWithValues ∨ optionName ∈ knownFlags then
      let isValue := decide (optionName ∈ optionsWithValues)
      ⟨[⟨if isValue && value.isNone then 2 else 1,
        {(argument, true), (optionName, isValue || longFlagAssignmentIsEnabled tables argument)}⟩], true⟩
    else if value.isSome then ⟨[⟨1, ∅⟩], true⟩
    else ⟨[⟨1, ∅⟩, ⟨2, ∅⟩], false⟩

/-- The advance of the first transition, where the shape is known and every other one agrees. -/
def OptionShape.sharedAdvance (shape : OptionShape) : Option Nat :=
  match shape.transitions.head? with
  | none => none
  | some first =>
    if shape.fullyKnown && shape.transitions.all (fun t => t.advance == first.advance) then some first.advance else none

def knownOptionAdvance (argument : String) : Option Nat :=
  if !isOption argument then none
  else OptionShape.sharedAdvance (optionShape tables optionsWithValues knownFlags argument)

/-! ## Parses -/

def subcommandVisit (arguments subcommands : List String) : Nat × Nat → Visit (Nat × Nat) ParseOutcome
  | (argumentIndex, subcommandIndex) =>
    if subcommandIndex = subcommands.length then .stop .matched
    else match arguments[argumentIndex]? with
      | none => .go []
      | some argument =>
        if argument = "--" then
          if (subcommands.drop subcommandIndex).isPrefixOf (arguments.drop (argumentIndex + 1)) then .stop .matched
          else .go []
        else if isOption argument then
          .go ((optionShape tables optionsWithValues knownFlags argument).transitions.map
            (fun t => (argumentIndex + t.advance, subcommandIndex)))
        else if subcommands[subcommandIndex]? = some argument then .go [(argumentIndex + 1, subcommandIndex + 1)]
        else .go []

def subcommandParseOutcome (arguments subcommands : List String) (stateLimit : Nat) : ParseOutcome :=
  match explore stateLimit (subcommandVisit tables optionsWithValues knownFlags arguments subcommands) false
    [(0, 0)] ∅ with
  | .exhausted => .uncertain
  | .stopped outcome => outcome
  | .finished _ => .noMatch

def matchesSubcommandsConservatively (arguments subcommands : List String) : Bool :=
  subcommandParseOutcome tables optionsWithValues knownFlags arguments subcommands maxOptionParseStates != .noMatch

/-- The assignment of the flag after a transition. -/
def nextAssignment (requiredFlag : String) (final : Option Bool) (t : OptionTransition) : Option Bool :=
  (((assignmentOrder.list t.flagAssignments).find? (fun a => a.1 == requiredFlag)).map (fun a => a.2)).or final

def flagVisit (arguments : List String) (requiredFlag : String) :
    Nat × Option Bool → Visit (Nat × Option Bool) ParseOutcome
  | (argumentIndex, finalAssignment) =>
    match arguments[argumentIndex]? with
    | none => if finalAssignment ≠ some true then .stop .noMatch else .note
    | some argument =>
      if argument = "--" then if finalAssignment ≠ some true then .stop .noMatch else .note
      else if !isOption argument then .go [(argumentIndex + 1, finalAssignment)]
      else .go ((optionShape tables optionsWithValues knownFlags argument).transitions.map
        (fun t => (argumentIndex + t.advance, nextAssignment requiredFlag finalAssignment t)))

def flagParseOutcome (arguments : List String) (requiredFlag : String) (stateLimit : Nat) : ParseOutcome :=
  match explore stateLimit (flagVisit tables optionsWithValues knownFlags arguments requiredFlag) false
    [(0, none)] ∅ with
  | .exhausted => .uncertain
  | .stopped outcome => outcome
  | .finished foundTerminal => if foundTerminal then .matched else .noMatch

def flagsPresentInAllOptionParses (arguments : List String) (requiredFlags : Finset String) : Bool :=
  (flagOrder.list requiredFlags).all (fun required =>
    flagParseOutcome tables optionsWithValues knownFlags arguments required maxOptionParseStates == .matched)

end

end Rust
end Options
end Guard
