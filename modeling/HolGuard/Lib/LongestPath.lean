import Mathlib
/-!
# Longest paths

Paths of a finite-branching graph by their number of edges, and the length of the longest one from a node.  A loop that
takes the maximum over the heights of the children, plus one, finds the height of the parent (`HeightOver`), and a bound
on the lengths of paths excludes cycles.
-/
namespace Lib

section Paths

variable {α : Type} (next : α → List α)

def Edge (a b : α) : Prop := b ∈ next a

/-- There is a path of that many edges from the node. -/
inductive PathFrom : α → Nat → Prop
  | stay (a : α) : PathFrom a 0
  | step {a b : α} {n : Nat} (h : b ∈ next a) (hb : PathFrom b n) : PathFrom a (n + 1)

/-- There is a path of that many edges from one node to another. -/
inductive Walk : α → Nat → α → Prop
  | stay (a : α) : Walk a 0 a
  | step {a b c : α} {n : Nat} (hb : Walk a n b) (h : c ∈ next b) : Walk a (n + 1) c

/-- The longest path from the node has that many edges. -/
structure IsHeight (a : α) (h : Nat) : Prop where
  path : PathFrom next a h
  longest : ∀ n, PathFrom next a n → n ≤ h

/-- The maximum over some nodes of their heights plus one, and zero over none. -/
structure HeightOver (nodes : List α) (h : Nat) : Prop where
  above : ∀ b ∈ nodes, ∃ k, IsHeight next b k ∧ k + 1 ≤ h
  attained : h = 0 ∨ ∃ b ∈ nodes, ∃ k, IsHeight next b k ∧ k + 1 = h

variable {next}

theorem Walk.pathFrom {a b : α} {n : Nat} (h : Walk next a n b) : ∀ {m : Nat}, PathFrom next b m →
    PathFrom next a (n + m) := by
  induction h with
  | stay => intro m hm; rwa [Nat.zero_add]
  | @step b c n _ hbc ih =>
    intro m hm
    have hlonger := ih (PathFrom.step hbc hm)
    rwa [show n + 1 + m = n + (m + 1) by omega]

theorem PathFrom.of_transGen {a b : α} (h : Relation.TransGen (Edge next) a b) : ∀ {m : Nat}, PathFrom next b m →
    ∃ n, m < n ∧ PathFrom next a n := by
  induction h with
  | single hedge => intro m hm; exact ⟨m + 1, Nat.lt_succ_self m, .step hedge hm⟩
  | tail _ hedge ih =>
    intro m hm
    obtain ⟨n, hlt, hn⟩ := ih (.step hedge hm)
    exact ⟨n, by omega, hn⟩

/-- **Bounded paths exclude cycles**: around a cycle paths get longer and longer. -/
theorem acyclic_of_bounded {bound : Nat} (h : ∀ a n, PathFrom next a n → n ≤ bound) (a : α) :
    ¬ Relation.TransGen (Edge next) a a := by
  intro hcycle
  have hlong : ∀ m, ∃ n, m ≤ n ∧ PathFrom next a n := by
    intro m
    induction m with
    | zero => exact ⟨0, le_rfl, .stay a⟩
    | succ m ih =>
      obtain ⟨n, hle, hn⟩ := ih
      obtain ⟨n', hlt, hn'⟩ := PathFrom.of_transGen hcycle hn
      exact ⟨n', by omega, hn'⟩
  obtain ⟨n, hle, hn⟩ := hlong (bound + 1)
  have := h a n hn
  omega

/-- A rank that every edge lowers bounds the paths. -/
theorem PathFrom.le_rank {rank : α → Nat} (hrank : ∀ a, ∀ b ∈ next a, rank b < rank a) {a : α} {n : Nat}
    (h : PathFrom next a n) : n ≤ rank a := by
  induction h with
  | stay a => exact Nat.zero_le _
  | step hb _ ih =>
    have := hrank _ _ hb
    omega

theorem IsHeight.unique {a : α} {h k : Nat} (hh : IsHeight next a h) (hk : IsHeight next a k) : h = k :=
  le_antisymm (hk.longest h hh.path) (hh.longest k hk.path)

theorem HeightOver.nil : HeightOver next ([] : List α) 0 := ⟨fun _ h => (by cases h), .inl rfl⟩

theorem HeightOver.snoc {nodes : List α} {h k : Nat} {b : α} (hover : HeightOver next nodes h)
    (hb : IsHeight next b k) : HeightOver next (nodes ++ [b]) (max h (k + 1)) where
  above c hc := by
    rcases List.mem_append.1 hc with hc | hc
    · obtain ⟨j, hj, hle⟩ := hover.above c hc
      exact ⟨j, hj, hle.trans (le_max_left _ _)⟩
    · rw [List.mem_singleton.1 hc]
      exact ⟨k, hb, le_max_right _ _⟩
  attained := by
    rcases le_total h (k + 1) with hle | hle
    · exact .inr ⟨b, by simp, k, hb, (max_eq_right hle).symm⟩
    · rw [max_eq_left hle]
      refine hover.attained.imp (fun h => h) ?_
      rintro ⟨c, hc, j, hj, heq⟩
      exact ⟨c, List.mem_append_left _ hc, j, hj, heq⟩

/-- **The maximum over the children is the height of the node.** -/
theorem HeightOver.isHeight {a : α} {h : Nat} (hover : HeightOver next (next a) h) : IsHeight next a h where
  path := by
    rcases hover.attained with rfl | ⟨b, hb, k, hk, rfl⟩
    · exact .stay a
    · exact .step hb hk.path
  longest n hn := by
    cases hn with
    | stay => exact Nat.zero_le h
    | step hb hpath =>
      obtain ⟨k, hk, hle⟩ := hover.above _ hb
      have := hk.longest _ hpath
      omega

end Paths

end Lib
