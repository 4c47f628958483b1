import HolGuard.Lib.LongestPath
import HolGuard.Lib.KeyMap
import HolGuard.Lib.Checks
/-!
# Dependencies of the source catalog

`acyclic` of the catalog sources: the same pass over a map from ids to the ids they depend on.  Heights are looked up
before the depth is checked, ids on the path are kept in a set, and an id that is not in the map is an error.
-/
namespace Guard
namespace Matchers
namespace Source

open Lib (Edge PathFrom Walk IsHeight HeightOver KeyMap)

abbrev Edges := KeyMap String (List String)

def children (edges : Edges) (id : String) : List String := (edges.get? id).getD []

def maxDependencyDepth : Nat := 32

def cycleOrDepth : String := "command_source_dependency_cycle_or_depth"

def missing : String := "command_source_dependency_missing"

structure VisitState where
  active : Finset String
  heights : String → Option Nat

def VisitState.fresh : VisitState := ⟨∅, fun _ => none⟩

def visitChildren (visitChild : String → VisitState → Except String (Nat × VisitState)) :
    List String → Nat → VisitState → Except String (Nat × VisitState)
  | [], height, s => .ok (height, s)
  | child :: rest, height, s =>
    match visitChild child s with
    | .error e => .error e
    | .ok (h, s) => visitChildren visitChild rest (max height (1 + h)) s

def visit (edges : Edges) (id : String) (s : VisitState) (depth : Nat) : Except String (Nat × VisitState) :=
  match s.heights id with
  | some height => if maxDependencyDepth < depth + height then .error cycleOrDepth else .ok (height, s)
  | none =>
    if _h : maxDependencyDepth < depth ∨ id ∈ s.active then .error cycleOrDepth
    else match edges.get? id with
      | none => .error missing
      | some children =>
        match visitChildren (fun child s => visit edges child s (depth + 1)) children 0
            { s with active := insert id s.active } with
        | .error e => .error e
        | .ok (height, s) => .ok (height, ⟨s.active.erase id, Function.update s.heights id (some height)⟩)
termination_by maxDependencyDepth + 1 - depth

def visitAll (edges : Edges) : List String → VisitState → Except String VisitState
  | [], s => .ok s
  | id :: rest, s =>
    match visit edges id s 0 with
    | .error e => .error e
    | .ok (_, s) => visitAll edges rest s

def acyclic (edges : Edges) : Except String Unit :=
  (visitAll edges (edges.pairs.map Prod.fst) .fresh).map (fun _ => ())

section Visit

variable {edges : Edges}

/-- Everything the id depends on is in the map. -/
def Resolved (edges : Edges) (id : String) : Prop :=
  ∀ b, Relation.ReflTransGen (Edge (children edges)) id b → (edges.get? b).isSome = true

/-- The heights that are known are right, and of ids whose dependencies are in the map. -/
def Sound (edges : Edges) (s : VisitState) : Prop :=
  ∀ id h, s.heights id = some h → IsHeight (children edges) id h ∧ Resolved edges id

/-- What a visit leaves: the ids on the path, and every height that was known. -/
structure Advances (s s' : VisitState) : Prop where
  active : s'.active = s.active
  known : ∀ i, (s.heights i).isSome = true → (s'.heights i).isSome = true

theorem Advances.refl (s : VisitState) : Advances s s := ⟨rfl, fun _ h => h⟩

theorem Advances.trans {a b c : VisitState} (h : Advances a b) (h' : Advances b c) : Advances a c :=
  ⟨h'.active.trans h.active, fun i hi => h'.known i (h.known i hi)⟩

structure Passed (edges : Edges) (id : String) (h depth : Nat) (s s' : VisitState) : Prop where
  sound : Sound edges s'
  height : IsHeight (children edges) id h
  bounded : depth + h ≤ maxDependencyDepth
  resolved : Resolved edges id
  stored : s'.heights id = some h
  advances : Advances s s'

theorem resolved_of_children {id : String} {list : List String} (hget : edges.get? id = some list)
    (hchildren : ∀ b ∈ list, Resolved edges b) : Resolved edges id := by
  intro b hb
  rcases Relation.ReflTransGen.cases_head hb with rfl | ⟨c, hc, hrest⟩
  · rw [hget]
    rfl
  · have hmem : c ∈ list := by simpa [Edge, children, hget] using hc
    exact hchildren c hmem b hrest

theorem visitChildren_ok {visitChild : String → VisitState → Except String (Nat × VisitState)} {depth : Nat}
    (hvisit : ∀ child s h s', Sound edges s → visitChild child s = .ok (h, s') →
      Passed edges child h (depth + 1) s s') :
    ∀ (rest seen : List String) (height : Nat) (s : VisitState) (h : Nat) (s' : VisitState), Sound edges s →
      HeightOver (children edges) seen height → depth + height ≤ maxDependencyDepth →
      visitChildren visitChild rest height s = .ok (h, s') →
        Sound edges s' ∧ HeightOver (children edges) (seen ++ rest) h ∧ depth + h ≤ maxDependencyDepth ∧
          (∀ b ∈ rest, Resolved edges b) ∧ Advances s s'
  | [], seen, height, s, h, s', hsound, hover, hle, hok => by
    cases hok
    rw [List.append_nil]
    exact ⟨hsound, hover, hle, (fun _ h => by cases h), .refl s⟩
  | child :: rest, seen, height, s, h, s', hsound, hover, hle, hok => by
    rw [visitChildren] at hok
    split at hok
    · cases hok
    rename_i k t hchild
    have hpassed := hvisit child s k t hsound hchild
    have hover' := hover.snoc hpassed.height
    have hle' := hpassed.bounded
    rw [Nat.add_comm 1 k] at hok
    obtain ⟨hsound', hover'', hle'', hresolved, hadvances⟩ := visitChildren_ok hvisit rest (seen ++ [child]) _ t h s'
      hpassed.sound hover' (by omega) hok
    rw [List.append_assoc] at hover''
    exact ⟨hsound', hover'', hle'', List.forall_mem_cons.2 ⟨hpassed.resolved, hresolved⟩,
      hpassed.advances.trans hadvances⟩

/-- **A visit that succeeds finds the height**, and everything the id depends on. -/
theorem visit_ok {id : String} {depth : Nat} {s s' : VisitState} {h : Nat} (hsound : Sound edges s)
    (hok : visit edges id s depth = .ok (h, s')) : Passed edges id h depth s s' := by
  fun_induction visit edges id s depth generalizing h s' with
  | case1 | case3 | case4 | case5 => cases hok
  | case2 id s depth height hheight hshort =>
    cases hok
    obtain ⟨his, hresolved⟩ := hsound id height hheight
    exact ⟨hsound, his, by omega, hresolved, hheight, .refl s⟩
  | case6 id s depth hheight hgood list hget height t hloop ih =>
    cases hok
    push Not at hgood
    obtain ⟨hsound', hover, hle, hresolved, hadvances⟩ := visitChildren_ok (fun child s _ _ => ih child s) list [] 0
      { s with active := insert id s.active } height t hsound .nil (by omega) hloop
    have hlist : children edges id = list := by rw [children, hget]; rfl
    have his : IsHeight (children edges) id height := HeightOver.isHeight (by rw [hlist]; exact hover)
    have hid := resolved_of_children hget hresolved
    refine ⟨fun i k hk => ?_, his, hle, hid, Function.update_self _ _ _, ?_, fun i hi => ?_⟩
    · by_cases hi : i = id
      · subst hi
        simp only [Function.update_self, Option.some.injEq] at hk
        subst hk
        exact ⟨his, hid⟩
      · simp only [Function.update_of_ne hi] at hk
        exact hsound' i k hk
    · simp only [hadvances.active]
      exact Finset.erase_insert hgood.2
    · by_cases hindex : i = id
      · subst hindex
        simp only [Function.update_self, Option.isSome_some]
      · simp only [Function.update_of_ne hindex]
        exact hadvances.known i hi

theorem visitChildren_of_bounded {visitChild : String → VisitState → Except String (Nat × VisitState)} {depth : Nat}
    (active : Finset String) (hvisit : ∀ child s h s', Sound edges s → visitChild child s = .ok (h, s') →
      Passed edges child h (depth + 1) s s') :
    ∀ (rest : List String) (height : Nat) (s : VisitState),
      (∀ child ∈ rest, ∀ s, Sound edges s → s.active = active → ∃ h s', visitChild child s = .ok (h, s')) →
      Sound edges s → s.active = active → ∃ h s', visitChildren visitChild rest height s = .ok (h, s')
  | [], height, s, _, _, _ => ⟨height, s, rfl⟩
  | child :: rest, height, s, hsucceeds, hsound, hactive => by
    obtain ⟨k, t, hchild⟩ := hsucceeds child List.mem_cons_self s hsound hactive
    have hpassed := hvisit child s k t hsound hchild
    rw [visitChildren, hchild]
    exact visitChildren_of_bounded active hvisit rest _ t (fun c hc => hsucceeds c (List.mem_cons_of_mem _ hc))
      hpassed.sound (hpassed.advances.active.trans hactive)

/-- **A visit succeeds where paths are short and the dependencies are in the map.** -/
theorem visit_of_bounded (hbounded : ∀ a n, PathFrom (children edges) a n → n ≤ maxDependencyDepth) {id root : String}
    {depth : Nat} {s : VisitState} (hsound : Sound edges s) (hresolved : Resolved edges id)
    (hwalk : Walk (children edges) root depth id)
    (hactive : ∀ i ∈ s.active, Relation.TransGen (Edge (children edges)) i id) :
    ∃ h s', visit edges id s depth = .ok (h, s') := by
  fun_induction visit edges id s depth with
  | case1 id s depth height hheight hlong =>
    have := hbounded root (depth + height) (hwalk.pathFrom (hsound id height hheight).1.path)
    omega
  | case2 | case6 => exact ⟨_, _, rfl⟩
  | case3 id s depth _ hbad =>
    rcases hbad with hdeep | hid
    · have := hbounded root (depth + 0) (hwalk.pathFrom (.stay id))
      omega
    · exact absurd (hactive id hid) (Lib.acyclic_of_bounded hbounded id)
  | case4 id s depth _ _ hget => simpa [hget] using hresolved id .refl
  | case5 id s depth _ hgood list hget e hloop ih =>
    obtain ⟨h, t, hok⟩ := visitChildren_of_bounded (insert id s.active)
      (fun child s h s' hs (hc : visit edges child s (depth + 1) = .ok (h, s')) => visit_ok hs hc) list 0
      { s with active := insert id s.active }
      (fun child hchild t ht hactive' => by
        have hedge : Edge (children edges) id child := by rw [Edge, children, hget]; exact hchild
        refine ih child t ht (fun b hb => hresolved b (.head hedge hb)) (.step hwalk hedge) (fun i hi => ?_)
        rw [hactive', Finset.mem_insert] at hi
        rcases hi with rfl | hi
        · exact .single hedge
        · exact (hactive i hi).tail hedge) hsound rfl
    cases hloop.symm.trans hok

theorem sound_fresh : Sound edges .fresh := fun _ _ h => by cases h

/-- **The run over some ids ends in a sound state that knows their heights.** -/
theorem visitAll_ok : ∀ {ids : List String} {s s' : VisitState}, Sound edges s → visitAll edges ids s = .ok s' →
    Sound edges s' ∧ Advances s s' ∧ ∀ id ∈ ids, ∃ h, s'.heights id = some h ∧ h ≤ maxDependencyDepth
  | [], s, s', hsound, hok => by
    cases hok
    exact ⟨hsound, .refl s, fun _ h => by cases h⟩
  | id :: rest, s, s', hsound, hok => by
    rw [visitAll] at hok
    split at hok
    · cases hok
    rename_i h t hid
    have hpassed := visit_ok hsound hid
    obtain ⟨hsound', hadvances, hrest⟩ := visitAll_ok hpassed.sound hok
    refine ⟨hsound', hpassed.advances.trans hadvances, List.forall_mem_cons.2 ⟨?_, hrest⟩⟩
    have hknown := hadvances.known id (by rw [hpassed.stored]; rfl)
    obtain ⟨k, hk⟩ := Option.isSome_iff_exists.1 hknown
    have hbounded := hpassed.bounded
    refine ⟨k, hk, ?_⟩
    rw [(hsound' id k hk).1.unique hpassed.height]
    omega

theorem visitAll_of_bounded (hbounded : ∀ a n, PathFrom (children edges) a n → n ≤ maxDependencyDepth) :
    ∀ (ids : List String) (s : VisitState), (∀ id ∈ ids, Resolved edges id) → Sound edges s → s.active = ∅ →
      ∃ s', visitAll edges ids s = .ok s'
  | [], s, _, _, _ => ⟨s, rfl⟩
  | id :: rest, s, hresolved, hsound, hactive => by
    obtain ⟨h, t, hok⟩ := visit_of_bounded hbounded hsound (hresolved id List.mem_cons_self) (.stay id)
      (fun i hi => by rw [hactive] at hi; cases hi)
    have hpassed := visit_ok hsound hok
    rw [visitAll, hok]
    exact visitAll_of_bounded hbounded rest t (fun i hi => hresolved i (List.mem_cons_of_mem _ hi)) hpassed.sound
      (hpassed.advances.active.trans hactive)

/-- Every dependency is an id of the map. -/
def Closed (edges : Edges) : Prop := ∀ id ∈ edges.pairs.map Prod.fst, ∀ child ∈ children edges id,
  child ∈ edges.pairs.map Prod.fst

theorem mem_keys_iff {id : String} : id ∈ edges.pairs.map Prod.fst ↔ (edges.get? id).isSome = true := by
  rw [Option.isSome_iff_exists, KeyMap.mem_keys_iff]

/-- **The check succeeds exactly when every dependency is there, there is no cycle and no path is too long.** -/
theorem acyclic_isOk_iff : acyclic edges = .ok () ↔ Closed edges ∧
    (∀ id, ¬ Relation.TransGen (Edge (children edges)) id id) ∧
      ∀ id n, PathFrom (children edges) id n → n ≤ maxDependencyDepth := by
  constructor
  · intro h
    obtain ⟨s, hall, -⟩ := Lib.map_eq_ok.1 h
    obtain ⟨hsound, -, hids⟩ := visitAll_ok sound_fresh hall
    have hbounded : ∀ id n, PathFrom (children edges) id n → n ≤ maxDependencyDepth := by
      intro id n hpath
      by_cases hid : id ∈ edges.pairs.map Prod.fst
      · obtain ⟨h, hstored, hle⟩ := hids id hid
        exact ((hsound id h hstored).1.longest n hpath).trans hle
      · cases hpath with
        | stay => exact Nat.zero_le _
        | step hchild =>
          rw [mem_keys_iff, Bool.not_eq_true, Option.isSome_eq_false_iff, Option.isNone_iff_eq_none] at hid
          rw [children, hid] at hchild
          cases hchild
    refine ⟨fun id hid child hchild => ?_, Lib.acyclic_of_bounded hbounded, hbounded⟩
    obtain ⟨h, hstored, -⟩ := hids id hid
    exact mem_keys_iff.2 ((hsound id h hstored).2 child (.single hchild))
  · rintro ⟨hclosed, -, hbounded⟩
    have hresolved : ∀ id ∈ edges.pairs.map Prod.fst, Resolved edges id := by
      intro id hid b hb
      rw [← mem_keys_iff]
      induction hb with
      | refl => exact hid
      | tail _ hedge ih => exact hclosed _ ih _ hedge
    obtain ⟨s, hs⟩ := visitAll_of_bounded hbounded _ .fresh hresolved sound_fresh rfl
    rw [acyclic, hs]
    rfl

/-- The heights a run over the whole map stores. -/
theorem heights_of_visitAll {s : VisitState} (h : visitAll edges (edges.pairs.map Prod.fst) .fresh = .ok s) :
    ∀ id ∈ edges.pairs.map Prod.fst, ∃ height, s.heights id = some height ∧ IsHeight (children edges) id height := by
  obtain ⟨hsound, -, hids⟩ := visitAll_ok sound_fresh h
  intro id hid
  obtain ⟨height, hstored, -⟩ := hids id hid
  exact ⟨height, hstored, (hsound id height hstored).1⟩

theorem children_of_pairs {P : String → String → Prop} (h : ∀ q ∈ edges.pairs, ∀ child ∈ q.2, P q.1 child)
    (id : String) : ∀ child ∈ children edges id, P id child := by
  intro child hchild
  rw [children] at hchild
  cases hget : edges.get? id with
  | none =>
    rw [hget] at hchild
    cases hchild
  | some list =>
    rw [hget] at hchild
    exact h (id, list) (KeyMap.get?_eq_some.1 hget) child hchild

end Visit

end Source
end Matchers
end Guard
