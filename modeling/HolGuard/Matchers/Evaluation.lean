import HolGuard.Matchers.Graph
import HolGuard.Matchers.SourceDependencies
/-!
# Evaluating matchers with a memo

`Evaluation::evaluate` recurses over the graph with a memo that all rules of a decision share.  On a validated graph it
ends, and gives what the matchers mean without a memo, unless a deadline passes.  Errors of a combination leave without
an entry in the memo, errors of a leaf are remembered; neither shows.
-/
namespace Guard
namespace Matchers

open Lib (Edge PathFrom IsHeight)

abbrev MatchResult := Except String (List Nat)

def deadlineExceeded : MatchResult := .error "native_command_deadline_exceeded"

def evidenceLimitExceeded : MatchResult := .error "native_command_evidence_limit_exceeded"

def maxEvidenceItems : Nat := 8192

/-- What a pipeline reads of a segment. -/
structure Segment where
  executionContext : String
  pipelineIndex : Nat
  deriving DecidableEq, Repr

/-- A command, the leaf matchers on it and a clock.  A leaf gives its value unless the deadline has passed when it
returns; a passed deadline stays passed. -/
structure Decision (Leaf : Type) where
  segments : List Segment
  leafValue : Leaf → MatchResult
  matchLeaf : Leaf → Nat → MatchResult × Nat
  expired : Nat → Bool
  expired_mono : ∀ {t t' : Nat}, t ≤ t' → expired t = true → expired t' = true
  matchLeaf_later : ∀ node t, t ≤ (matchLeaf node t).2
  matchLeaf_timely : ∀ node t, (matchLeaf node t).1 = leafValue node ∨ expired (matchLeaf node t).2 = true

/-- The second segment takes the output of the first. -/
def follows (segments : List Segment) (first second : Nat) : Bool :=
  decide (second = first + 1) && match segments[first]?, segments[second]? with
    | some before, some after =>
      before.executionContext == after.executionContext && after.pipelineIndex == before.pipelineIndex + 1
    | _, _ => false

/-- The first pair of a producer and a consumer that follows it. -/
def pipelineEvidence (segments : List Segment) (producer consumer : List Nat) : List Nat :=
  ((producer.flatMap (fun first => consumer.map (fun second => (first, second)))).find?
    (fun pair => follows segments pair.1 pair.2)).elim [] (fun pair => [pair.1, pair.2])

/-! ## With the memo -/

structure EvaluationState where
  memo : Nat → Option MatchResult
  clock : Nat

def EvaluationState.fresh : EvaluationState := ⟨fun _ => none, 0⟩

/-- A look at the clock. -/
def EvaluationState.tick (s : EvaluationState) : EvaluationState := { s with clock := s.clock + 1 }

section Evaluate

variable {Leaf : Type} (list : NodeList Leaf) (decision : Decision Leaf)

/-- The end of an evaluation: the deadline once more, and the entry in the memo. -/
def finish (index : Nat) (value : MatchResult) (s : EvaluationState) : MatchResult × EvaluationState :=
  if decision.expired s.clock then (deadlineExceeded, s.tick)
  else (value, ⟨Function.update s.memo index (some value), s.clock + 1⟩)

/-- The loop over the children of `Any` and `All`; an error leaves the evaluation at once. -/
def evaluateChildren (evaluateChild : Nat → EvaluationState → Option (MatchResult × EvaluationState))
    (requireAll : Bool) : List Nat → List Nat → EvaluationState → Option (MatchResult × EvaluationState)
  | [], evidence, s => some (.ok evidence, s)
  | child :: rest, evidence, s =>
    match evaluateChild child s with
    | none => none
    | some (.error e, s) => some (.error e, s)
    | some (.ok values, s) =>
      if requireAll && values.isEmpty then some (.ok [], s)
      else if maxEvidenceItems < evidence.length + values.length then some (evidenceLimitExceeded, s)
      else evaluateChildren evaluateChild requireAll rest (evidence ++ values) s

/-- What an evaluation does with the value of a combination. -/
def settle (index : Nat) : MatchResult × EvaluationState → MatchResult × EvaluationState
  | (.error e, s) => (.error e, s)
  | (.ok evidence, s) => finish decision index (.ok evidence) s

def evaluatePipeline (evaluateChild : Nat → EvaluationState → Option (MatchResult × EvaluationState))
    (producer consumer : Nat) (s : EvaluationState) : Option (MatchResult × EvaluationState) :=
  match evaluateChild producer s with
  | none => none
  | some (.error e, s) => some (.error e, s)
  | some (.ok first, s) =>
    match evaluateChild consumer s with
    | none => none
    | some (.error e, s) => some (.error e, s)
    | some (.ok second, s) => some (.ok (pipelineEvidence decision.segments first second), s)

/-- `Evaluation::evaluate`, with a bound on the depth of the recursion. -/
def evaluate : Nat → Nat → EvaluationState → Option (MatchResult × EvaluationState)
  | 0, _, _ => none
  | fuel + 1, index, s =>
    if decision.expired s.clock then some (deadlineExceeded, s.tick)
    else match s.memo index with
      | some value => some (value, s.tick)
      | none => match list.nodes[index]? with
        | none => none
        | some (.leaf node) =>
          some (finish decision index (decision.matchLeaf node s.tick.clock).1
            { s with clock := (decision.matchLeaf node s.tick.clock).2 })
        | some (.any children) =>
          (evaluateChildren (evaluate fuel) false children [] s.tick).map (settle decision index)
        | some (.all children) => (evaluateChildren (evaluate fuel) true children [] s.tick).map (settle decision index)
        | some (.pipeline producer consumer) =>
          (evaluatePipeline decision (evaluate fuel) producer consumer s.tick).map (settle decision index)

/-- The rules of a decision, evaluated in turn with one memo. -/
def evaluateRoots (fuel : Nat) : List Nat → EvaluationState → Option (List MatchResult × EvaluationState)
  | [], s => some ([], s)
  | root :: roots, s =>
    match evaluate list decision fuel root s with
    | none => none
    | some (r, s) => (evaluateRoots fuel roots s).map (fun rest => (r :: rest.1, rest.2))

/-! ## Without the memo -/

def childrenValue (value : Nat → Option MatchResult) (requireAll : Bool) : List Nat → List Nat → Option MatchResult
  | [], evidence => some (.ok evidence)
  | child :: rest, evidence =>
    match value child with
    | none => none
    | some (.error e) => some (.error e)
    | some (.ok values) =>
      if requireAll && values.isEmpty then some (.ok [])
      else if maxEvidenceItems < evidence.length + values.length then some evidenceLimitExceeded
      else childrenValue value requireAll rest (evidence ++ values)

def pipelineValue (value : Nat → Option MatchResult) (producer consumer : Nat) : Option MatchResult :=
  match value producer with
  | none => none
  | some (.error e) => some (.error e)
  | some (.ok first) =>
    match value consumer with
    | none => none
    | some (.error e) => some (.error e)
    | some (.ok second) => some (.ok (pipelineEvidence decision.segments first second))

/-- What a node means: its children's meanings combined, down to a depth. -/
def structural : Nat → Nat → Option MatchResult
  | 0, _ => none
  | depth + 1, index =>
    match list.nodes[index]? with
    | none => none
    | some (.leaf node) => some (decision.leafValue node)
    | some (.any children) => childrenValue (structural depth) false children []
    | some (.all children) => childrenValue (structural depth) true children []
    | some (.pipeline producer consumer) => pipelineValue decision (structural depth) producer consumer

/-- The value of a node, found at some depth. -/
def Denotes (index : Nat) (value : MatchResult) : Prop := ∃ depth, structural list decision depth index = some value

variable {list decision}

theorem childrenValue_mono {value value' : Nat → Option MatchResult} (h : ∀ i v, value i = some v → value' i = some v)
    {requireAll : Bool} : ∀ {children evidence : List Nat} {r : MatchResult},
      childrenValue value requireAll children evidence = some r → childrenValue value' requireAll children evidence =
        some r
  | [], _, _, hr => hr
  | child :: rest, evidence, r, hr => by
    rw [childrenValue] at hr ⊢
    split at hr
    · cases hr
    · rename_i e hchild
      rw [h child _ hchild]
      exact hr
    · rename_i values hchild
      rw [h child _ hchild]
      simp only
      split_ifs at hr ⊢
      · exact hr
      · exact hr
      · exact childrenValue_mono h hr

theorem pipelineValue_mono {value value' : Nat → Option MatchResult} (h : ∀ i v, value i = some v → value' i = some v)
    {producer consumer : Nat} {r : MatchResult} (hr : pipelineValue decision value producer consumer = some r) :
    pipelineValue decision value' producer consumer = some r := by
  rw [pipelineValue] at hr ⊢
  -- the parts that were reached had values, and `h` keeps them
  repeat' split at hr
  all_goals grind

theorem structural_succ : ∀ {depth index : Nat} {v : MatchResult}, structural list decision depth index = some v →
    structural list decision (depth + 1) index = some v
  | 0, _, _, h => by cases h
  | depth + 1, index, v, h => by
    rw [structural] at h ⊢
    cases hnode : list.nodes[index]? with
    | none => rw [hnode] at h; cases h
    | some node =>
      rw [hnode] at h
      cases node with
      | leaf node => exact h
      | any children => exact childrenValue_mono (fun i v => structural_succ) h
      | all children => exact childrenValue_mono (fun i v => structural_succ) h
      | pipeline producer consumer => exact pipelineValue_mono (fun i v => structural_succ) h

theorem structural_le {depth depth' index : Nat} {v : MatchResult} (hle : depth ≤ depth')
    (h : structural list decision depth index = some v) : structural list decision depth' index = some v := by
  induction hle with
  | refl => exact h
  | step _ ih => exact structural_succ ih

theorem Denotes.unique {index : Nat} {v w : MatchResult} (hv : Denotes list decision index v)
    (hw : Denotes list decision index w) : v = w := by
  obtain ⟨m, hm⟩ := hv
  obtain ⟨n, hn⟩ := hw
  have hm' := structural_le (le_max_left m n) hm
  rw [structural_le (le_max_right m n) hn] at hm'
  exact (Option.some.inj hm').symm

/-! ## The memo does not show -/

/-- Every entry of the memo is the value of its node. -/
def MemoSound (list : NodeList Leaf) (decision : Decision Leaf) (s : EvaluationState) : Prop :=
  ∀ i v, s.memo i = some v → Denotes list decision i v

/-- What an evaluation answers: the value `P` asks for, or the deadline. -/
structure Answers (list : NodeList Leaf) (decision : Decision Leaf) (P : MatchResult → Prop) (s : EvaluationState)
    (r : MatchResult) (s' : EvaluationState) : Prop where
  memo : MemoSound list decision s'
  clock : s.clock ≤ s'.clock
  value : P r ∨ r = deadlineExceeded ∧ decision.expired s'.clock = true

/-- A run of the evaluation ends and answers. -/
def Ends (list : NodeList Leaf) (decision : Decision Leaf) (P : MatchResult → Prop) (s : EvaluationState)
    (run : Option (MatchResult × EvaluationState)) : Prop := ∃ r s', run = some (r, s') ∧ Answers list decision P s r s'

theorem finish_answers {index : Nat} {value : MatchResult} {s : EvaluationState} (hmemo : MemoSound list decision s)
    (hvalue : decision.expired s.clock = false → Denotes list decision index value) :
    Answers list decision (Denotes list decision index) s (finish decision index value s).1
      (finish decision index value s).2 := by
  unfold finish
  cases hexpired : decision.expired s.clock with
  | true =>
    refine ⟨hmemo, Nat.le_succ _, .inr ⟨rfl, ?_⟩⟩
    exact decision.expired_mono (Nat.le_succ _) hexpired
  | false =>
    have hdenotes := hvalue hexpired
    refine ⟨fun i v hv => ?_, Nat.le_succ _, .inl hdenotes⟩
    by_cases hi : i = index
    · subst hi
      simp only [Bool.false_eq_true, if_false, Function.update_self, Option.some.injEq] at hv
      rw [← hv]
      exact hdenotes
    · simp only [Bool.false_eq_true, if_false, Function.update_of_ne hi] at hv
      exact hmemo i v hv

theorem evaluateChildren_answers {evaluateChild : Nat → EvaluationState → Option (MatchResult × EvaluationState)}
    (requireAll : Bool) : ∀ (children evidence : List Nat) (s : EvaluationState),
      (∀ child ∈ children, ∀ s, MemoSound list decision s →
        Ends list decision (Denotes list decision child) s (evaluateChild child s)) → MemoSound list decision s →
      Ends list decision
        (fun r => ∃ depth, childrenValue (structural list decision depth) requireAll children evidence =
        some r) s (evaluateChildren evaluateChild requireAll children evidence s)
  | [], evidence, s, _, hmemo => ⟨.ok evidence, s, rfl, hmemo, le_rfl, .inl ⟨0, rfl⟩⟩
  | child :: rest, evidence, s, hchildren, hmemo => by
    obtain ⟨r, t, hchild, hanswers⟩ := hchildren child List.mem_cons_self s hmemo
    rw [evaluateChildren, hchild]
    rcases hanswers.value with ⟨depth, hdepth⟩ | ⟨rfl, hexpired⟩
    · cases r with
      | error e => exact ⟨_, t, rfl, hanswers.memo, hanswers.clock, .inl ⟨depth, by rw [childrenValue, hdepth]⟩⟩
      | ok values =>
        simp only
        split_ifs with hgo hlimit
        · exact ⟨_, t, rfl, hanswers.memo, hanswers.clock, .inl ⟨depth, by simp [childrenValue, hdepth, hgo]⟩⟩
        · exact ⟨_, t, rfl, hanswers.memo, hanswers.clock, .inl ⟨depth, by simp [childrenValue, hdepth, hgo, hlimit]⟩⟩
        obtain ⟨r', t', hrest, hanswers'⟩ := evaluateChildren_answers requireAll rest (evidence ++ values) t
          (fun c hc => hchildren c (List.mem_cons_of_mem _ hc)) hanswers.memo
        refine ⟨r', t', hrest, hanswers'.memo, hanswers.clock.trans hanswers'.clock,
          hanswers'.value.imp ?_ (fun h => h)⟩
        rintro ⟨depth', hdepth'⟩
        refine ⟨max depth depth', ?_⟩
        rw [childrenValue, structural_le (le_max_left depth depth') hdepth]
        simp only [hgo, if_false, hlimit, Bool.false_eq_true]
        exact childrenValue_mono (fun i v => structural_le (le_max_right depth depth')) hdepth'
    · exact ⟨deadlineExceeded, t, rfl, hanswers.memo, hanswers.clock, .inr ⟨rfl, hexpired⟩⟩

theorem evaluatePipeline_answers {evaluateChild : Nat → EvaluationState → Option (MatchResult × EvaluationState)}
    {producer consumer : Nat} {s : EvaluationState}
    (hchildren : ∀ child ∈ [producer, consumer], ∀ s, MemoSound list decision s →
      Ends list decision (Denotes list decision child) s (evaluateChild child s)) (hmemo : MemoSound list decision s) :
    Ends list decision (fun r => ∃ depth, pipelineValue decision (structural list decision depth) producer consumer =
      some r) s (evaluatePipeline decision evaluateChild producer consumer s) := by
  obtain ⟨r, t, hfirst, hanswers⟩ := hchildren producer (by simp) s hmemo
  rw [evaluatePipeline, hfirst]
  rcases hanswers.value with ⟨depth, hdepth⟩ | ⟨rfl, hexpired⟩
  · cases r with
    | error e =>
      refine ⟨.error e, t, rfl, hanswers.memo, hanswers.clock, .inl ⟨depth, ?_⟩⟩
      rw [pipelineValue, hdepth]
    | ok first =>
      obtain ⟨r', t', hsecond, hanswers'⟩ := hchildren consumer (by simp) t hanswers.memo
      simp only [hsecond]
      have hclock := hanswers.clock.trans hanswers'.clock
      rcases hanswers'.value with ⟨depth', hdepth'⟩ | ⟨rfl, hexpired⟩
      · have hfirst' := structural_le (le_max_left depth depth') hdepth
        have hsecond' := structural_le (le_max_right depth depth') hdepth'
        cases r' with
        | error e =>
          refine ⟨.error e, t', rfl, hanswers'.memo, hclock, .inl ⟨max depth depth', ?_⟩⟩
          rw [pipelineValue, hfirst', hsecond']
        | ok second =>
          refine ⟨_, t', rfl, hanswers'.memo, hclock, .inl ⟨max depth depth', ?_⟩⟩
          rw [pipelineValue, hfirst', hsecond']
      · exact ⟨deadlineExceeded, t', rfl, hanswers'.memo, hclock, .inr ⟨rfl, hexpired⟩⟩
  · exact ⟨deadlineExceeded, t, rfl, hanswers.memo, hanswers.clock, .inr ⟨rfl, hexpired⟩⟩

/-- What an evaluation does with a combination keeps what it answers. -/
theorem settle_ends (index : Nat) {s₀ s : EvaluationState} {P : MatchResult → Prop}
    {run : Option (MatchResult × EvaluationState)} (hlater : s₀.clock ≤ s.clock) (h : Ends list decision P s run)
    (hP : ∀ r, P r → Denotes list decision index r) :
    Ends list decision (Denotes list decision index) s₀ (run.map (settle decision index)) := by
  obtain ⟨r, t, rfl, h⟩ := h
  cases r with
  | error e => exact ⟨.error e, t, rfl, h.memo, hlater.trans h.clock, h.value.imp (hP _) (fun h => h)⟩
  | ok evidence =>
    have hvalue : Denotes list decision index (.ok evidence) := by
      rcases h.value with hvalue | ⟨hdeadline, -⟩
      · exact hP _ hvalue
      · cases hdeadline
    have hfinish := finish_answers h.memo (fun _ => hvalue)
    exact ⟨_, _, rfl, hfinish.memo, (hlater.trans h.clock).trans hfinish.clock, hfinish.value⟩

/-- **An evaluation with enough depth ends, and answers the value of the node or the deadline.** -/
theorem evaluate_answers : ∀ (fuel index : Nat) (s : EvaluationState), index < list.nodes.length →
    (∀ n, PathFrom list.children index n → n < fuel) → MemoSound list decision s →
      Ends list decision (Denotes list decision index) s (evaluate list decision fuel index s)
  | 0, index, _, _, hfuel, _ => absurd (hfuel 0 (.stay index)) (Nat.not_lt_zero 0)
  | fuel + 1, index, s, hindex, hfuel, hmemo => by
    have htick : MemoSound list decision s.tick := hmemo
    have hlater : s.clock ≤ s.tick.clock := Nat.le_succ _
    rw [evaluate]
    cases hexpired : decision.expired s.clock with
    | true =>
      exact ⟨deadlineExceeded, s.tick, rfl, htick, hlater, .inr ⟨rfl, decision.expired_mono hlater hexpired⟩⟩
    | false =>
    simp only [Bool.false_eq_true, if_false]
    cases hentry : s.memo index with
    | some value => exact ⟨value, s.tick, rfl, htick, hlater, .inl (hmemo index value hentry)⟩
    | none =>
    obtain ⟨node, hnode⟩ : ∃ node, list.nodes[index]? = some node := ⟨_, List.getElem?_eq_getElem hindex⟩
    have hchildren : ∀ child ∈ graphChildren node, ∀ s, MemoSound list decision s →
        Ends list decision (Denotes list decision child) s (evaluate list decision fuel child s) := by
      intro child hchild s hs
      obtain ⟨hedge, hlt⟩ := list.child_of_node hnode hchild
      exact evaluate_answers fuel child s hlt (fun n hn => Nat.lt_of_succ_lt_succ (hfuel (n + 1) (.step hedge hn))) hs
    -- a combination means what its parts mean one level down
    have hup : ∀ value : Nat → Option MatchResult, (∀ depth, structural list decision (depth + 1) index = value depth) →
        ∀ r, (∃ depth, value depth = some r) → Denotes list decision index r := by
      rintro value hvalue r ⟨depth, hdepth⟩
      exact ⟨depth + 1, (hvalue depth).trans hdepth⟩
    simp only [hnode]
    cases node with
    | leaf node =>
      have hvalue : decision.expired (decision.matchLeaf node s.tick.clock).2 = false →
          Denotes list decision index (decision.matchLeaf node s.tick.clock).1 := by
        intro htimely
        rw [(decision.matchLeaf_timely node s.tick.clock).resolve_right (by simp [htimely])]
        exact ⟨1, by rw [structural, hnode]⟩
      have hleaf : MemoSound list decision { s with clock := (decision.matchLeaf node s.tick.clock).2 } := hmemo
      have hfinish := finish_answers hleaf hvalue
      exact ⟨_, _, rfl, hfinish.memo,
        (hlater.trans (decision.matchLeaf_later node s.tick.clock)).trans hfinish.clock, hfinish.value⟩
    | any children =>
      exact settle_ends index hlater (evaluateChildren_answers false children [] s.tick hchildren htick)
        (hup _ (fun depth => by rw [structural, hnode]))
    | all children =>
      exact settle_ends index hlater (evaluateChildren_answers true children [] s.tick hchildren htick)
        (hup _ (fun depth => by rw [structural, hnode]))
    | pipeline producer consumer =>
      exact settle_ends index hlater (evaluatePipeline_answers hchildren htick)
        (hup _ (fun depth => by rw [structural, hnode]))

theorem evaluateRoots_answers {fuel : Nat} : ∀ (roots : List Nat) (s : EvaluationState),
    (∀ root ∈ roots, root < list.nodes.length ∧ ∀ n, PathFrom list.children root n → n < fuel) →
      MemoSound list decision s → ∃ results s', evaluateRoots list decision fuel roots s = some (results, s') ∧
        s.clock ≤ s'.clock ∧ List.Forall₂ (fun root r => Denotes list decision root r ∨
          r = deadlineExceeded ∧ decision.expired s'.clock = true) roots results
  | [], s, _, _ => ⟨[], s, rfl, le_rfl, .nil⟩
  | root :: roots, s, hroots, hmemo => by
    obtain ⟨hindex, hfuel⟩ := hroots root List.mem_cons_self
    obtain ⟨r, t, hroot, hanswers⟩ := evaluate_answers fuel root s hindex hfuel hmemo
    obtain ⟨results, s', hrest, hclock, hall⟩ := evaluateRoots_answers roots t
      (fun i hi => hroots i (List.mem_cons_of_mem _ hi)) hanswers.memo
    rw [evaluateRoots, hroot]
    simp only [hrest, Option.map_some]
    refine ⟨_, _, rfl, hanswers.clock.trans hclock, .cons (hanswers.value.imp (fun h => h) ?_) hall⟩
    exact fun h => ⟨h.1, decision.expired_mono hclock h.2⟩

theorem childrenValue_total {value : Nat → Option MatchResult} {requireAll : Bool} : ∀ (children evidence : List Nat),
    (∀ child ∈ children, ∃ v, value child = some v) → ∃ r, childrenValue value requireAll children evidence = some r
  | [], evidence, _ => ⟨.ok evidence, rfl⟩
  | child :: rest, evidence, h => by
    obtain ⟨v, hv⟩ := h child List.mem_cons_self
    rw [childrenValue, hv]
    cases v with
    | error e => exact ⟨_, rfl⟩
    | ok values =>
      simp only
      split
      · exact ⟨_, rfl⟩
      split
      · exact ⟨_, rfl⟩
      exact childrenValue_total rest _ (fun c hc => h c (List.mem_cons_of_mem _ hc))

/-- A node has a value at every depth beyond its longest path. -/
theorem structural_total : ∀ (depth index : Nat), index < list.nodes.length →
    (∀ n, PathFrom list.children index n → n < depth) → ∃ v, structural list decision depth index = some v
  | 0, index, _, hdepth => absurd (hdepth 0 (.stay index)) (Nat.not_lt_zero 0)
  | depth + 1, index, hindex, hdepth => by
    obtain ⟨node, hnode⟩ : ∃ node, list.nodes[index]? = some node := ⟨_, List.getElem?_eq_getElem hindex⟩
    have hchildren : ∀ child ∈ graphChildren node, ∃ v, structural list decision depth child = some v := by
      intro child hchild
      obtain ⟨hedge, hlt⟩ := list.child_of_node hnode hchild
      exact structural_total depth child hlt (fun n hn => Nat.lt_of_succ_lt_succ (hdepth (n + 1) (.step hedge hn)))
    rw [structural, hnode]
    cases node with
    | leaf node => exact ⟨_, rfl⟩
    | any children => exact childrenValue_total children [] hchildren
    | all children => exact childrenValue_total children [] hchildren
    | pipeline producer consumer =>
      obtain ⟨v, hv⟩ := hchildren producer (by simp [graphChildren])
      obtain ⟨w, hw⟩ := hchildren consumer (by simp [graphChildren])
      simp only [pipelineValue, hv, hw]
      cases v with
      | error e => exact ⟨_, rfl⟩
      | ok first => cases w <;> exact ⟨_, rfl⟩

end Evaluate

/-- **A validated graph evaluates.**  Validation succeeds exactly when the graph has no cycle and no path of more than
32 edges, whatever the numbering; the heights it stores are then the lengths of longest paths, and rules evaluated in
any order with one memo end and give each node the value it has without a memo, unless a deadline passes.  The check of
the source catalog succeeds alike for a map that has all dependencies, and stores the heights alike. -/
theorem validated_graph_evaluates {Leaf : Type} (list : NodeList Leaf) :
    ((∃ s, list.validate = .ok s) ↔ (∀ index, ¬ Relation.TransGen (Edge list.children) index index) ∧
      ∀ index n, PathFrom list.children index n → n ≤ 32) ∧
    (∀ s, list.validate = .ok s →
      (∀ index < list.nodes.length, IsHeight list.children index (s.heights index)) ∧
      ∀ decision : Decision Leaf, ∃ value : Nat → MatchResult,
        (∀ depth > 32, ∀ index < list.nodes.length, structural list decision depth index = some (value index)) ∧
        ∀ fuel > 32, ∀ roots : List Nat, (∀ root ∈ roots, root < list.nodes.length) →
          ∃ results s', evaluateRoots list decision fuel roots .fresh = some (results, s') ∧
            List.Forall₂ (fun root r => r = value root ∨ r = deadlineExceeded ∧ decision.expired s'.clock = true)
              roots results) ∧
    ∀ edges : Source.Edges,
      (Source.acyclic edges = .ok () ↔ Source.Closed edges ∧
        (∀ id, ¬ Relation.TransGen (Edge (Source.children edges)) id id) ∧
          ∀ id n, PathFrom (Source.children edges) id n → n ≤ 32) ∧
      ∀ s, Source.visitAll edges (edges.pairs.map Prod.fst) .fresh = .ok s → ∀ id ∈ edges.pairs.map Prod.fst,
        ∃ height, s.heights id = some height ∧ IsHeight (Source.children edges) id height := by
  refine ⟨list.validate_isOk_iff, fun s hs => ⟨fun index hindex => (list.validate_heights hs index hindex).1, ?_⟩,
    fun edges => ⟨Source.acyclic_isOk_iff, fun s hs => Source.heights_of_visitAll hs⟩⟩
  intro decision
  have hbounded := list.bounded_of_validate hs
  have hshort : ∀ {fuel index : Nat}, 32 < fuel → ∀ n, PathFrom list.children index n → n < fuel :=
    fun hfuel n hn => lt_of_le_of_lt (hbounded _ n hn) hfuel
  have hvalue : ∀ index < list.nodes.length, structural list decision 33 index =
      some ((structural list decision 33 index).getD deadlineExceeded) := by
    intro index hindex
    obtain ⟨v, hv⟩ : ∃ v, structural list decision 33 index = some v :=
      structural_total 33 index hindex (hshort (by omega))
    rw [hv]
    rfl
  refine ⟨fun index => (structural list decision 33 index).getD deadlineExceeded, fun depth hdepth index hindex =>
    structural_le hdepth (hvalue index hindex), fun fuel hfuel roots hroots => ?_⟩
  have hempty : MemoSound list decision .fresh := fun i v h => by cases h
  obtain ⟨results, s', hrun, -, hall⟩ := evaluateRoots_answers roots .fresh
    (fun root hroot => ⟨hroots root hroot, hshort hfuel⟩) hempty
  refine ⟨results, s', hrun, ?_⟩
  -- the value found with the memo is the one found at depth 33
  rw [List.forall₂_iff_get] at hall ⊢
  refine ⟨hall.1, fun i h₁ h₂ => (hall.2 i h₁ h₂).imp (fun hdenotes => ?_) (fun h => h)⟩
  exact hdenotes.unique ⟨33, hvalue _ (hroots _ (List.get_mem _ _))⟩

/-! ## A command with two segments -/

/-- The loop of a leaf matcher over segments: every turn looks at the deadline first. -/
def scanSegments (expired matched : Nat → Bool) : List Nat → List Nat → Nat → MatchResult × Nat
  | [], evidence, t => (.ok evidence, t)
  | index :: rest, evidence, t =>
    if expired t then (deadlineExceeded, t + 1)
    else scanSegments expired matched rest (if matched index then evidence ++ [index] else evidence) (t + 1)

section Scan

variable {expired matched : Nat → Bool}

theorem le_scanSegments : ∀ (indices evidence : List Nat) (t : Nat),
    t ≤ (scanSegments expired matched indices evidence t).2
  | [], _, t => le_rfl
  | index :: rest, evidence, t => by
    rw [scanSegments]
    split
    · exact Nat.le_succ t
    · exact (Nat.le_succ t).trans (le_scanSegments rest _ (t + 1))

theorem scanSegments_timely (hmono : ∀ {t t' : Nat}, t ≤ t' → expired t = true → expired t' = true) :
    ∀ (indices evidence : List Nat) (t : Nat),
      (scanSegments expired matched indices evidence t).1 = .ok (evidence ++ indices.filter matched) ∨
        expired (scanSegments expired matched indices evidence t).2 = true
  | [], evidence, t => .inl (by simp [scanSegments])
  | index :: rest, evidence, t => by
    rw [scanSegments]
    split
    · rename_i hexpired
      exact .inr (hmono (Nat.le_succ t) hexpired)
    · refine (scanSegments_timely hmono rest _ (t + 1)).imp (fun h => h.trans ?_) (fun h => h)
      cases hmatched : matched index <;> simp [hmatched]

theorem deadline_mono {deadline : Option Nat} {t t' : Nat} (hle : t ≤ t') (h : deadline.any (· ≤ t) = true) :
    deadline.any (· ≤ t') = true := by
  cases deadline with
  | none => cases h
  | some d => simpa using (show d ≤ t by simpa using h).trans hle

end Scan

/-- A decision whose leaves scan the segments; the clock counts looks at it. -/
def Decision.scanning {Leaf : Type} (segments : List Segment) (matched : Leaf → Nat → Bool) (deadline : Option Nat) :
    Decision Leaf where
  segments := segments
  leafValue node := .ok ((List.range segments.length).filter (matched node))
  matchLeaf node := scanSegments (fun t => deadline.any (· ≤ t)) (matched node) (List.range segments.length) []
  expired t := deadline.any (· ≤ t)
  expired_mono := deadline_mono
  matchLeaf_later _ t := le_scanSegments _ _ t
  matchLeaf_timely _ t := scanSegments_timely deadline_mono _ _ t

/-- A download piped into a shell; the two leaves are shared by the combinations. -/
def sampleNodes : NodeList String where
  nodes := [.leaf "curl", .leaf "sh", .any [0, 1], .pipeline 0 1, .all [2, 3]]
  resolved := by decide

def sampleDecision : Decision String :=
  .scanning [⟨"shell", 0⟩, ⟨"shell", 1⟩] (fun name index => ["curl", "sh"][index]? == some name) none

def sampleRank (index : Nat) : Nat := if index < 2 then 0 else if index < 4 then 1 else 2

theorem sampleRank_lt (index : Nat) : ∀ child ∈ sampleNodes.children index, sampleRank child < sampleRank index := by
  rcases Nat.lt_or_ge index sampleNodes.nodes.length with hindex | hindex
  · revert index
    decide
  · rw [sampleNodes.children_eq_nil hindex]
    exact fun _ h => by cases h

def sampleEdges : Source.Edges := ⟨[("a", ["b", "c"]), ("b", ["c"]), ("c", [])], by decide⟩

def sourceRank (id : String) : Nat := if id = "a" then 2 else if id = "b" then 1 else 0

theorem bounded_of_sourceRank {edges : Source.Edges}
    (h : ∀ q ∈ edges.pairs, ∀ child ∈ q.2, sourceRank child < sourceRank q.1) :
    ∀ id n, PathFrom (Source.children edges) id n → n ≤ sourceRank id ∧ n ≤ 32 := by
  intro id n hn
  have hle := hn.le_rank (Source.children_of_pairs h)
  refine ⟨hle, hle.trans ?_⟩
  unfold sourceRank
  split_ifs <;> omega

/-- Validated, the shared nodes have their heights and every rule its value; so has a catalog with a shared
dependency. -/
theorem shared_nodes_evaluate :
    (∃ s, sampleNodes.validate = .ok s ∧ s.heights 4 = 2) ∧
    (∃ results s', evaluateRoots sampleNodes sampleDecision 33 [4, 2, 4] .fresh = some (results, s') ∧
      results = [.ok [0, 1, 0, 1], .ok [0, 1], .ok [0, 1, 0, 1]]) ∧
    ∃ s, Source.visitAll sampleEdges ["a", "b", "c"] .fresh = .ok s ∧ s.heights "a" = some 2 := by
  obtain ⟨hvalid, hruns, hsource⟩ := validated_graph_evaluates sampleNodes
  have hsmall : ∀ index, sampleRank index ≤ 32 := by
    intro index
    unfold sampleRank
    split_ifs <;> omega
  have hbounded : ∀ index n, PathFrom sampleNodes.children index n → n ≤ 32 :=
    fun index n hn => (hn.le_rank sampleRank_lt).trans (hsmall index)
  obtain ⟨s, hs⟩ := hvalid.2 ⟨Lib.acyclic_of_bounded hbounded, hbounded⟩
  obtain ⟨hheights, hevaluates⟩ := hruns s hs
  refine ⟨⟨s, hs, ?_⟩, ?_, ?_⟩
  · have hpath : PathFrom sampleNodes.children 4 2 := .step (b := 3) (by decide) (.step (b := 0) (by decide) (.stay 0))
    exact (hheights 4 (by decide)).unique ⟨hpath, fun n hn => hn.le_rank sampleRank_lt⟩
  · obtain ⟨value, hvalue, hroots⟩ := hevaluates sampleDecision
    obtain ⟨results, s', hrun, hall⟩ := hroots 33 (by decide) [4, 2, 4] (by decide)
    refine ⟨results, s', hrun, ?_⟩
    have hfour : value 4 = .ok [0, 1, 0, 1] := Option.some.inj ((hvalue 33 (by decide) 4 (by decide)).symm.trans rfl)
    have htwo : value 2 = .ok [0, 1] := Option.some.inj ((hvalue 33 (by decide) 2 (by decide)).symm.trans rfl)
    -- there is no deadline, so every answer is a value
    have hvalues : List.Forall₂ (fun root r => r = value root) [4, 2, 4] results :=
      hall.imp fun _ _ h => h.resolve_right fun hlate => Bool.false_ne_true hlate.2
    rcases hvalues with _ | ⟨hfirst, _ | ⟨hsecond, _ | ⟨hthird, ⟨⟩⟩⟩⟩
    rw [hfirst, hsecond, hthird, hfour, htwo]
  · obtain ⟨hacyclic, hstored⟩ := hsource sampleEdges
    have hpaths : ∀ id n, PathFrom (Source.children sampleEdges) id n → n ≤ sourceRank id ∧ n ≤ 32 :=
      bounded_of_sourceRank (by decide)
    have hshort := fun id n hn => (hpaths id n hn).2
    have hkeys : ∀ id, ∀ child ∈ Source.children sampleEdges id, child ∈ sampleEdges.pairs.map Prod.fst :=
      Source.children_of_pairs (by decide)
    obtain ⟨s, hs, -⟩ := Lib.map_eq_ok.1 (hacyclic.2 ⟨fun id _ => hkeys id, Lib.acyclic_of_bounded hshort, hshort⟩)
    refine ⟨s, hs, ?_⟩
    obtain ⟨height, hheight, his⟩ := hstored s hs "a" (by decide)
    have hpath : PathFrom (Source.children sampleEdges) "a" 2 :=
      .step (b := "b") (by decide) (.step (b := "c") (by decide) (.stay "c"))
    rw [hheight, his.unique ⟨hpath, fun n hn => (hpaths "a" n hn).1⟩]

/-- A dependency that is missing from the map. -/
def danglingEdges : Source.Edges := ⟨[("a", ["b"])], by decide⟩

/-- **The catalog check also refuses a missing dependency**, without a cycle or a long path. -/
theorem missing_dependency_refused :
    Source.acyclic danglingEdges = .error Source.missing ∧
    (∀ id, ¬ Relation.TransGen (Edge (Source.children danglingEdges)) id id) ∧
      ∀ id n, PathFrom (Source.children danglingEdges) id n → n ≤ 32 := by
  have hshort : ∀ id n, PathFrom (Source.children danglingEdges) id n → n ≤ 32 :=
    fun id n hn => (bounded_of_sourceRank (by decide) id n hn).2
  have hmissing : Source.visit danglingEdges "b" ⟨{"a"}, fun _ => none⟩ 1 = .error Source.missing := by
    rw [Source.visit]
    rfl
  have hvisit : Source.visit danglingEdges "a" .fresh 0 = .error Source.missing := by
    have hget : danglingEdges.get? "a" = some ["b"] := rfl
    rw [Source.visit]
    simp [Source.VisitState.fresh, hget, Source.visitChildren, hmissing]
  refine ⟨?_, Lib.acyclic_of_bounded hshort, hshort⟩
  show (Source.visitAll danglingEdges ["a"] .fresh).map (fun _ => ()) = .error Source.missing
  rw [Source.visitAll, hvisit]
  rfl

end Matchers
end Guard
