import HolGuard.Lib.LongestPath
import HolGuard.Lib.Checks
/-!
# The graph of matchers

`validate_graph` of the program compiler: a depth-first pass from every node, with marks and heights shared by all
passes.  The depth is counted along the current path while heights are remembered across roots; the pass succeeds
exactly when there is no cycle and no path is longer than 32 edges, whatever the numbering, and the heights are then the
lengths of the longest paths.
-/
namespace Guard
namespace Matchers

open Lib (Edge PathFrom Walk IsHeight HeightOver)

/-- A matcher: a leaf that looks at the segments of a command, or a combination of other nodes. -/
inductive Matcher (Leaf : Type) where
  | leaf (node : Leaf)
  | any (children : List Nat)
  | all (children : List Nat)
  | pipeline (producer consumer : Nat)

def graphChildren {Leaf : Type} : Matcher Leaf → List Nat
  | .any children => children
  | .all children => children
  | .pipeline producer consumer => [producer, consumer]
  | .leaf _ => []

/-- The nodes of a program.  Compilation resolves every child to an index of the list. -/
structure NodeList (Leaf : Type) where
  nodes : List (Matcher Leaf)
  resolved : ∀ node ∈ nodes, ∀ child ∈ graphChildren node, child < nodes.length

def NodeList.children {Leaf : Type} (list : NodeList Leaf) (index : Nat) : List Nat :=
  (list.nodes[index]?).elim [] graphChildren

def maxDepth : Nat := 32

inductive Mark where
  | unseen
  | open
  | done
  deriving DecidableEq, Repr

/-- The two arrays that the passes share. -/
structure GraphState where
  visit : Nat → Mark
  heights : Nat → Nat

def GraphState.fresh : GraphState := ⟨fun _ => .unseen, fun _ => 0⟩

def cycleOrDepth : String := "native_command_matcher_cycle_or_depth"

def visitChildren (visitChild : Nat → GraphState → Except String (Nat × GraphState)) :
    List Nat → Nat → GraphState → Except String (Nat × GraphState)
  | [], height, s => .ok (height, s)
  | child :: rest, height, s =>
    match visitChild child s with
    | .error e => .error e
    | .ok (h, s) =>
      if maxDepth < max height (h + 1) then .error cycleOrDepth
      else visitChildren visitChild rest (max height (h + 1)) s

def validateGraph (children : Nat → List Nat) (index : Nat) (s : GraphState) (depth : Nat) :
    Except String (Nat × GraphState) :=
  if _h : maxDepth < depth ∨ s.visit index = .open then .error cycleOrDepth
  else if s.visit index = .done then
    if maxDepth < depth + s.heights index then .error cycleOrDepth else .ok (s.heights index, s)
  else
    match visitChildren (fun child s => validateGraph children child s (depth + 1)) (children index) 0
        { s with visit := Function.update s.visit index .open } with
    | .error e => .error e
    | .ok (height, s) =>
      .ok (height, ⟨Function.update s.visit index .done, Function.update s.heights index height⟩)
termination_by maxDepth + 1 - depth

def validateNodes (children : Nat → List Nat) : List Nat → GraphState → Except String GraphState
  | [], s => .ok s
  | index :: rest, s =>
    match validateGraph children index s 0 with
    | .error e => .error e
    | .ok (_, s) => validateNodes children rest s

section Validate

variable {children : Nat → List Nat}

/-- The heights of the nodes that are done are right. -/
def Sound (children : Nat → List Nat) (s : GraphState) : Prop :=
  ∀ i, s.visit i = .done → IsHeight children i (s.heights i)

theorem Sound.markOpen {s : GraphState} (h : Sound children s) (index : Nat) :
    Sound children { s with visit := Function.update s.visit index .open } := by
  intro i hi
  simp only at hi ⊢
  by_cases hindex : i = index
  · subst hindex
    rw [Function.update_self] at hi
    cases hi
  · rw [Function.update_of_ne hindex] at hi
    exact h i hi

/-- What a pass leaves of the marks: the open nodes stay, and nothing done is undone. -/
structure Advances (s s' : GraphState) : Prop where
  opened : ∀ i, s'.visit i = .open ↔ s.visit i = .open
  done : ∀ i, s.visit i = .done → s'.visit i = .done

theorem Advances.refl (s : GraphState) : Advances s s := ⟨fun _ => Iff.rfl, fun _ h => h⟩

theorem Advances.trans {a b c : GraphState} (h : Advances a b) (h' : Advances b c) : Advances a c :=
  ⟨fun i => (h'.opened i).trans (h.opened i), fun i hi => h'.done i (h.done i hi)⟩

structure Passed (children : Nat → List Nat) (index h : Nat) (s s' : GraphState) : Prop where
  sound : Sound children s'
  height : IsHeight children index h
  bounded : h ≤ maxDepth
  done : s'.visit index = .done
  advances : Advances s s'

/-- The loop over children, from what each visit establishes: `seen` are the children already visited. -/
theorem visitChildren_ok {visitChild : Nat → GraphState → Except String (Nat × GraphState)}
    (hvisit : ∀ child s h s', Sound children s → visitChild child s = .ok (h, s') → Passed children child h s s') :
    ∀ (rest seen : List Nat) (height : Nat) (s : GraphState) (h : Nat) (s' : GraphState), Sound children s →
      HeightOver children seen height → height ≤ maxDepth → visitChildren visitChild rest height s = .ok (h, s') →
        Sound children s' ∧ HeightOver children (seen ++ rest) h ∧ h ≤ maxDepth ∧ Advances s s'
  | [], seen, height, s, h, s', hsound, hover, hle, hok => by
    cases hok
    rw [List.append_nil]
    exact ⟨hsound, hover, hle, .refl s⟩
  | child :: rest, seen, height, s, h, s', hsound, hover, hle, hok => by
    rw [visitChildren] at hok
    split at hok
    · cases hok
    rename_i k t hchild
    obtain ⟨hshort, hok⟩ := Lib.ite_error_eq_ok.1 hok
    have hpassed := hvisit child s k t hsound hchild
    obtain ⟨hsound', hover', hle', hadvances⟩ := visitChildren_ok hvisit rest (seen ++ [child]) _ t h s' hpassed.sound
      (hover.snoc hpassed.height) (not_lt.1 hshort) hok
    rw [List.append_assoc] at hover'
    exact ⟨hsound', hover', hle', hpassed.advances.trans hadvances⟩

/-- **A pass that succeeds finds the height.** -/
theorem validateGraph_ok {index depth : Nat} {s s' : GraphState} {h : Nat} (hsound : Sound children s)
    (hok : validateGraph children index s depth = .ok (h, s')) : Passed children index h s s' := by
  fun_induction validateGraph children index s depth generalizing h s' with
  | case1 | case2 | case4 => cases hok
  | case3 index s depth _ hdone hshort =>
    cases hok
    exact ⟨hsound, hsound index hdone, by omega, hdone, .refl s⟩
  | case5 index s depth hgood hundone height t hloop ih =>
    cases hok
    obtain ⟨hsound', hover, hle, hadvances⟩ := visitChildren_ok (fun child s _ _ => ih child s) (children index) [] 0 _
      height t (hsound.markOpen index) .nil (Nat.zero_le _) hloop
    have hheight : IsHeight children index height := HeightOver.isHeight hover
    refine ⟨fun i hi => ?_, hheight, hle, Function.update_self _ _ _, fun i => ?_, fun i hi => ?_⟩
    all_goals by_cases hindex : i = index
    · subst hindex
      simp only [Function.update_self]
      exact hheight
    · simp only [Function.update_of_ne hindex] at hi ⊢
      exact hsound' i hi
    · subst hindex
      simp only [Function.update_self, reduceCtorEq, false_iff]
      exact fun h => hgood (.inr h)
    · simpa only [Function.update_of_ne hindex] using hadvances.opened i
    · subst hindex
      exact Function.update_self _ _ _
    · have hdone := hadvances.done i
      simp only [Function.update_of_ne hindex] at hdone ⊢
      exact hdone hi

/-! ## Completeness -/

theorem visitChildren_of_bounded {visitChild : Nat → GraphState → Except String (Nat × GraphState)} (index : Nat)
    (marks : Nat → Mark)
    (hvisit : ∀ child s h s', Sound children s → visitChild child s = .ok (h, s') → Passed children child h s s')
    (hsucceeds : ∀ child s, child ∈ children index → Sound children s → (∀ i, s.visit i = .open ↔ marks i = .open) →
      ∃ h s', visitChild child s = .ok (h, s'))
    (hbounded : ∀ a n, PathFrom children a n → n ≤ maxDepth) :
    ∀ (rest seen : List Nat) (height : Nat) (s : GraphState), children index = seen ++ rest → Sound children s →
      (∀ i, s.visit i = .open ↔ marks i = .open) → HeightOver children seen height →
        ∃ h s', visitChildren visitChild rest height s = .ok (h, s')
  | [], _, height, s, _, _, _, _ => ⟨height, s, rfl⟩
  | child :: rest, seen, height, s, hsplit, hsound, hmarks, hover => by
    have hmem : child ∈ children index := by rw [hsplit]; simp
    obtain ⟨k, t, hchild⟩ := hsucceeds child s hmem hsound hmarks
    have hpassed := hvisit child s k t hsound hchild
    have hnext := hover.snoc hpassed.height
    have hshort : ¬ maxDepth < max height (k + 1) := by
      -- the maximum over some children is attained by a path of the parent
      rcases hnext.attained with hzero | ⟨b, hb, j, hj, heq⟩
      · omega
      · have hb' : b ∈ children index := by
          rw [hsplit, ← List.singleton_append, ← List.append_assoc]
          exact List.mem_append_left _ hb
        have := hbounded index (j + 1) (.step hb' hj.path)
        omega
    rw [visitChildren, hchild]
    simp only
    rw [if_neg hshort]
    refine visitChildren_of_bounded index marks hvisit hsucceeds hbounded rest (seen ++ [child]) _ t
      (by simpa using hsplit) hpassed.sound (fun i => (hpassed.advances.opened i).trans (hmarks i)) hnext

/-- **A pass succeeds where paths are short**: the open nodes are the ancestors of the node, and the depth counts a path
to it. -/
theorem validateGraph_of_bounded (hbounded : ∀ a n, PathFrom children a n → n ≤ maxDepth) {index depth root : Nat}
    {s : GraphState} (hsound : Sound children s) (hwalk : Walk children root depth index)
    (hopen : ∀ i, s.visit i = .open → Relation.TransGen (Edge children) i index) :
    ∃ h s', validateGraph children index s depth = .ok (h, s') := by
  fun_induction validateGraph children index s depth with
  | case1 index s depth hbad =>
    rcases hbad with hdeep | hindex
    · have := hbounded root (depth + 0) (hwalk.pathFrom (.stay index))
      omega
    · exact absurd (hopen index hindex) (Lib.acyclic_of_bounded hbounded index)
  | case2 index s depth _ hdone hlong =>
    have := hbounded root (depth + s.heights index) (hwalk.pathFrom (hsound index hdone).path)
    omega
  | case3 | case5 => exact ⟨_, _, rfl⟩
  | case4 index s depth hgood hundone e hloop ih =>
    obtain ⟨h, t, hok⟩ := visitChildren_of_bounded index (Function.update s.visit index .open)
      (fun child s h s' hs hc => validateGraph_ok hs hc)
      (fun child t hchild ht hmarks => by
        refine ih child t ht (.step hwalk hchild) (fun i hi => ?_)
        have hi' := (hmarks i).1 hi
        by_cases hindex : i = index
        · subst hindex
          exact .single hchild
        · rw [Function.update_of_ne hindex] at hi'
          exact (hopen i hi').tail hchild)
      hbounded (children index) [] 0 { s with visit := Function.update s.visit index .open } rfl (hsound.markOpen index)
      (fun _ => Iff.rfl) .nil
    cases hloop.symm.trans hok

/-! ## All nodes -/

theorem validateNodes_ok : ∀ {indices : List Nat} {s s' : GraphState}, Sound children s →
    validateNodes children indices s = .ok s' → Sound children s' ∧ Advances s s' ∧
      ∀ i ∈ indices, s'.visit i = .done ∧ s'.heights i ≤ maxDepth
  | [], s, s', hsound, hok => by
    cases hok
    exact ⟨hsound, .refl s, fun _ h => by cases h⟩
  | index :: rest, s, s', hsound, hok => by
    rw [validateNodes] at hok
    split at hok
    · cases hok
    rename_i h t hindex
    have hpassed := validateGraph_ok hsound hindex
    obtain ⟨hsound', hadvances, hrest⟩ := validateNodes_ok hpassed.sound hok
    have hdone := hadvances.done index hpassed.done
    refine ⟨hsound', hpassed.advances.trans hadvances, List.forall_mem_cons.2 ⟨⟨hdone, ?_⟩, hrest⟩⟩
    rw [(hsound' index hdone).unique hpassed.height]
    exact hpassed.bounded

theorem validateNodes_of_bounded (hbounded : ∀ a n, PathFrom children a n → n ≤ maxDepth) :
    ∀ (indices : List Nat) (s : GraphState), Sound children s → (∀ i, s.visit i ≠ .open) →
      ∃ s', validateNodes children indices s = .ok s'
  | [], s, _, _ => ⟨s, rfl⟩
  | index :: rest, s, hsound, hclosed => by
    obtain ⟨h, t, hok⟩ := validateGraph_of_bounded hbounded hsound (.stay index)
      (fun i hi => absurd hi (hclosed i))
    have hpassed := validateGraph_ok hsound hok
    rw [validateNodes, hok]
    exact validateNodes_of_bounded hbounded rest t hpassed.sound
      (fun i hi => hclosed i ((hpassed.advances.opened i).1 hi))

theorem sound_fresh : Sound children .fresh := fun _ hi => by cases hi

end Validate

section Nodes

variable {Leaf : Type} (list : NodeList Leaf)

theorem NodeList.children_eq_nil {index : Nat} (h : list.nodes.length ≤ index) : list.children index = [] := by
  rw [NodeList.children, List.getElem?_eq_none h]
  rfl

theorem NodeList.child_of_node {index child : Nat} {node : Matcher Leaf} (hnode : list.nodes[index]? = some node)
    (hchild : child ∈ graphChildren node) : child ∈ list.children index ∧ child < list.nodes.length := by
  rw [NodeList.children, hnode]
  exact ⟨hchild, list.resolved node (List.mem_of_getElem? hnode) child hchild⟩

/-- The pass over all nodes, as admission runs it. -/
def NodeList.validate : Except String GraphState :=
  validateNodes list.children (List.range list.nodes.length) .fresh

theorem NodeList.validate_heights {s : GraphState} (h : list.validate = .ok s) :
    ∀ index < list.nodes.length, IsHeight list.children index (s.heights index) ∧ s.heights index ≤ maxDepth := by
  obtain ⟨hsound, -, hdone⟩ := validateNodes_ok sound_fresh h
  intro index hindex
  obtain ⟨hvisit, hle⟩ := hdone index (List.mem_range.2 hindex)
  exact ⟨hsound index hvisit, hle⟩

theorem NodeList.bounded_of_validate {s : GraphState} (h : list.validate = .ok s) :
    ∀ index n, PathFrom list.children index n → n ≤ maxDepth := by
  intro index n hpath
  rcases Nat.lt_or_ge index list.nodes.length with hindex | hindex
  · obtain ⟨hheight, hle⟩ := list.validate_heights h index hindex
    exact (hheight.longest n hpath).trans hle
  · cases hpath with
    | stay => exact Nat.zero_le _
    | step hchild =>
      rw [list.children_eq_nil hindex] at hchild
      cases hchild

/-- **The pass succeeds exactly when there is no cycle and no path is too long.** -/
theorem NodeList.validate_isOk_iff : (∃ s, list.validate = .ok s) ↔
    (∀ index, ¬ Relation.TransGen (Edge list.children) index index) ∧
      ∀ index n, PathFrom list.children index n → n ≤ maxDepth := by
  constructor
  · rintro ⟨s, h⟩
    have hbounded := list.bounded_of_validate h
    exact ⟨Lib.acyclic_of_bounded hbounded, hbounded⟩
  · rintro ⟨-, hbounded⟩
    exact validateNodes_of_bounded hbounded _ _ sound_fresh (fun i hi => by cases hi)

end Nodes

end Matchers
end Guard
