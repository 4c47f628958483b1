import Mathlib
/-!
# Dependencies of an item

A loop with a stack and a set of visited items that follows the dependencies of an item through a table and says whether
one of them, the item included, is marked.  It gives no answer when a dependency is not in the table.
-/
namespace Lib

variable {α : Type} [DecidableEq α]

def dependenciesOf (table : List (α × List α)) (item : α) : Option (List α) :=
  (table.find? (fun entry => entry.1 = item)).map Prod.snd

theorem mem_keys_of_dependenciesOf {table : List (α × List α)} {item : α} {next : List α}
    (h : dependenciesOf table item = some next) : item ∈ (table.map Prod.fst).toFinset := by
  obtain ⟨entry, hentry, -⟩ := Option.map_eq_some_iff.1 h
  have hkey : entry.1 = item := by simpa using List.find?_some hentry
  rw [List.mem_toFinset, ← hkey]
  exact List.mem_map_of_mem (List.mem_of_find?_eq_some hentry)

/-- The loop: `pending` is the stack, its top first. -/
def dependsOnMarked (table : List (α × List α)) (marked : α → Bool) (pending : List α) (visited : Finset α)
    (found : Bool) : Option Bool :=
  match pending with
  | [] => some found
  | item :: pending =>
    if _hseen : item ∈ visited then dependsOnMarked table marked pending visited found
    else match _hnext : dependenciesOf table item with
      | none => none
      | some next => dependsOnMarked table marked (next.reverse ++ pending) (insert item visited) (found || marked item)
termination_by (((table.map Prod.fst).toFinset \ visited).card, pending.length)
decreasing_by
  · exact Prod.Lex.right _ (Nat.lt_succ_self _)
  · refine Prod.Lex.left _ _ (Finset.card_lt_card ⟨Finset.sdiff_subset_sdiff subset_rfl (Finset.subset_insert _ _), ?_⟩)
    intro hsubset
    have hitem := hsubset (Finset.mem_sdiff.2 ⟨mem_keys_of_dependenciesOf _hnext, _hseen⟩)
    exact (Finset.mem_sdiff.1 hitem).2 (Finset.mem_insert_self _ _)

theorem dependsOnMarked_alone {table : List (α × List α)} (marked : α → Bool) {item : α}
    (h : dependenciesOf table item = some []) : dependsOnMarked table marked [item] ∅ false = some (marked item) := by
  rw [dependsOnMarked, dif_neg (Finset.notMem_empty item)]
  split
  · rename_i hnone
    rw [h] at hnone
    cases hnone
  · rename_i next hnext
    rw [h] at hnext
    cases hnext
    rw [List.reverse_nil, List.nil_append, dependsOnMarked, Bool.false_or]

/-- **Marking more finds more**, and whether there is an answer does not depend on the marks. -/
theorem dependsOnMarked_mono (table : List (α × List α)) {marked marked' : α → Bool}
    (hmarked : ∀ a, marked a = true → marked' a = true) (pending : List α) (visited : Finset α) (found : Bool) :
    ∀ found', (found = true → found' = true) → ∀ b, dependsOnMarked table marked pending visited found = some b →
      ∃ b', dependsOnMarked table marked' pending visited found' = some b' ∧ (b = true → b' = true) := by
  fun_induction dependsOnMarked table marked pending visited found with
  | case1 visited found =>
    intro found' hfound b hb
    cases hb
    exact ⟨found', by rw [dependsOnMarked], hfound⟩
  | case2 visited found item pending hseen ih =>
    intro found' hfound b hb
    rw [dependsOnMarked, dif_pos hseen]
    exact ih found' hfound b hb
  | case3 visited found item pending hseen hnext =>
    intro found' _ b hb
    cases hb
  | case4 visited found item pending hseen next hnext ih =>
    intro found' hfound b hb
    obtain ⟨b', hb', himp⟩ := ih (found' || marked' item) (by
      simp only [Bool.or_eq_true]
      exact Or.imp hfound (hmarked item)) b hb
    refine ⟨b', ?_, himp⟩
    rw [dependsOnMarked, dif_neg hseen]
    split
    · rename_i hnone
      rw [hnext] at hnone
      cases hnone
    · rename_i next' hnext'
      rw [hnext] at hnext'
      cases hnext'
      exact hb'

end Lib
