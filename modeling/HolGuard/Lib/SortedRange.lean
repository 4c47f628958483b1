import HolGuard.Lib.Codec
/-!
# Ranges of a sorted map

The keys of a sorted map that start with a text stand together: skipping the smaller keys and taking while keys start
with the text finds them all.
-/
namespace Lib

/-- A text comes no later than those it starts. -/
theorem not_lt_of_prefix {p k : List Char} (h : p <+: k) : ¬ k < p := by
  induction p generalizing k with
  | nil => exact List.not_lt_nil k
  | cons c p ih =>
    obtain ⟨rest, rfl⟩ := h
    rw [List.cons_append, List.cons_lt_cons_iff]
    rintro (hlt | ⟨-, hlt⟩)
    · exact lt_irrefl c hlt
    · exact ih (List.prefix_append p rest) hlt

/-- A later text that it does not start comes after all of them. -/
theorem lt_of_prefix_of_not_prefix {p k k' : List Char} (h' : p <+: k') (hlt : ¬ k < p) (h : ¬ p <+: k) : k' < k := by
  induction p generalizing k k' with
  | nil => exact absurd List.nil_prefix h
  | cons c p ih =>
    obtain ⟨rest, rfl⟩ := h'
    cases k with
    | nil => exact absurd (List.nil_lt_cons c p) hlt
    | cons d k =>
      rw [List.cons_lt_cons_iff, not_or, not_and] at hlt
      rw [List.cons_append, List.cons_lt_cons_iff]
      by_cases hcd : d = c
      · subst hcd
        refine .inr ⟨rfl, ih (List.prefix_append p rest) (hlt.2 rfl) (fun hp => h ?_)⟩
        exact List.cons_prefix_cons.2 ⟨rfl, hp⟩
      · exact .inl (lt_of_le_of_ne (not_lt.1 hlt.1) (Ne.symm hcd))

namespace SortedMap

variable {α : Type}

def get? (m : SortedMap α) (key : String) : Option α := (m.pairs.find? (fun q => q.1 = key)).map Prod.snd

theorem mem_of_get? {m : SortedMap α} {key : String} {a : α} (h : m.get? key = some a) : (key, a) ∈ m.pairs := by
  obtain ⟨q, hq, rfl⟩ := Option.map_eq_some_iff.1 h
  have hkey : q.1 = key := by simpa using List.find?_some hq
  rw [← hkey]
  exact List.mem_of_find?_eq_some hq

/-- The pairs from the text on, as long as their keys start with it. -/
def startingWith (m : SortedMap α) (start : String) : List (String × α) :=
  (m.pairs.dropWhile (fun q => decide (q.1 < start))).takeWhile (fun q => start.toList.isPrefixOf q.1.toList)

theorem mem_takeWhile_of_start {start : String} {q : String × α} (hq : start.toList <+: q.1.toList) :
    ∀ {l : List (String × α)}, (l.map Prod.fst).Pairwise (· < ·) → (∀ r ∈ l, ¬ r.1 < start) → q ∈ l →
      q ∈ l.takeWhile (fun q => start.toList.isPrefixOf q.1.toList)
  | [], _, _, h => by cases h
  | a :: l, hsorted, hfrom, h => by
    rw [List.map_cons, List.pairwise_cons] at hsorted
    by_cases ha : start.toList <+: a.1.toList
    · have hpos : start.toList.isPrefixOf a.1.toList = true := List.isPrefixOf_iff_prefix.2 ha
      rw [List.takeWhile_cons, hpos, if_pos rfl]
      rcases List.mem_cons.1 h with rfl | h
      · exact List.mem_cons_self
      · exact List.mem_cons_of_mem _ (mem_takeWhile_of_start hq hsorted.2
          (fun r hr => hfrom r (List.mem_cons_of_mem _ hr)) h)
    · -- a key that does not start with the text is after all that do, so none of them comes later
      have hne : q ≠ a := fun he => ha (he ▸ hq)
      have hafter := hsorted.1 q.1 (List.mem_map_of_mem ((List.mem_cons.1 h).resolve_left hne))
      have hbefore := lt_of_prefix_of_not_prefix hq
        (fun hlt => hfrom a List.mem_cons_self (String.lt_iff_toList_lt.2 hlt)) ha
      exact absurd (String.lt_iff_toList_lt.1 hafter) (lt_asymm hbefore)

/-- **The range holds every pair whose key starts with the text.** -/
theorem mem_startingWith {m : SortedMap α} {start : String} {q : String × α} (h : q ∈ m.pairs)
    (hq : start.toList <+: q.1.toList) : q ∈ m.startingWith start := by
  have hnot : ¬ q.1 < start := fun hlt => not_lt_of_prefix hq (String.lt_iff_toList_lt.1 hlt)
  obtain ⟨pairs, hsorted⟩ := m
  unfold startingWith
  simp only at h ⊢
  induction pairs with
  | nil => cases h
  | cons a l ih =>
    by_cases ha : a.1 < start
    · rw [List.dropWhile_cons_of_pos (by simpa using ha)]
      rw [List.map_cons, List.pairwise_cons] at hsorted
      refine ih hsorted.2 ((List.mem_cons.1 h).resolve_left (fun he => hnot ?_))
      rw [he]
      exact ha
    · rw [List.dropWhile_cons_of_neg (by simpa using ha)]
      refine mem_takeWhile_of_start hq hsorted (fun r hr => ?_) h
      rcases List.mem_cons.1 hr with rfl | hr
      · exact ha
      · rw [List.map_cons, List.pairwise_cons] at hsorted
        have hlater := hsorted.1 r.1 (List.mem_map_of_mem hr)
        exact fun hlt => ha (hlater.trans hlt)

end SortedMap

end Lib
