import Mathlib
/-!
# Bounded exploration

A depth-first search with a stack, a set of visited states and a budget for that set.  Visiting a state ends the search
with a verdict, notes the state, or pushes the states to look at next.  The order in which states are pushed decides how
a search that does not finish ends; whether it finishes, and whether it then noted a state, depends only on what is
reachable.
-/
namespace Lib

inductive Visit (σ ν : Type) where
  | stop (verdict : ν)
  | note
  | go (next : List σ)

inductive SearchResult (ν : Type) where
  | exhausted
  | stopped (verdict : ν)
  | finished (noted : Bool)

namespace Visit

variable {σ ν : Type}

/-- Two visits that differ at most in the order of the states they push. -/
def Alike : Visit σ ν → Visit σ ν → Prop
  | .stop v, .stop w => v = w
  | .note, .note => True
  | .go l, .go m => ∀ s, s ∈ l ↔ s ∈ m
  | _, _ => False

theorem Alike.refl : ∀ v : Visit σ ν, Alike v v
  | .stop _ => rfl
  | .note => trivial
  | .go _ => fun _ => Iff.rfl

end Visit

variable {σ ν : Type}

/-- The states a search from `start` can come to. -/
def Reaches (visit : σ → Visit σ ν) (start s : σ) : Prop :=
  Relation.ReflTransGen (fun a b => ∃ next, visit a = .go next ∧ b ∈ next) start s

theorem reaches_of_alike {visit visit' : σ → Visit σ ν} (h : ∀ s, Visit.Alike (visit s) (visit' s)) {start s : σ}
    (hs : Reaches visit start s) : Reaches visit' start s := by
  refine Relation.ReflTransGen.mono (fun a b => ?_) _ _ hs
  rintro ⟨next, hnext, hb⟩
  have ha := h a
  rw [hnext] at ha
  cases hv : visit' a with
  | stop v => rw [hv] at ha; exact ha.elim
  | note => rw [hv] at ha; exact ha.elim
  | go next' =>
    rw [hv] at ha
    exact ⟨next', rfl, (ha b).1 hb⟩

theorem Visit.Alike.symm {v w : Visit σ ν} (h : Alike v w) : Alike w v := by
  cases v <;> cases w <;> simp_all [Visit.Alike]

theorem Visit.Alike.eq_stop_iff {v w : Visit σ ν} (h : Alike v w) {u : ν} : v = .stop u ↔ w = .stop u := by
  cases v <;> cases w <;> simp_all [Visit.Alike]

theorem Visit.Alike.eq_note_iff {v w : Visit σ ν} (h : Alike v w) : v = .note ↔ w = .note := by
  cases v <;> cases w <;> simp_all [Visit.Alike]

variable [DecidableEq σ]

/-- The search: `pending` is the stack, its top first. -/
def explore (limit : Nat) (visit : σ → Visit σ ν) (noted : Bool) (pending : List σ) (visited : Finset σ) :
    SearchResult ν :=
  match pending with
  | [] => .finished noted
  | s :: pending =>
    if _hs : s ∈ visited then explore limit visit noted pending visited
    else if _hlimit : limit ≤ visited.card then .exhausted
    else match visit s with
      | .stop v => .stopped v
      | .note => explore limit visit true pending (insert s visited)
      | .go next => explore limit visit noted (next.reverse ++ pending) (insert s visited)
termination_by (limit - visited.card, pending.length)
decreasing_by
  · exact Prod.Lex.right _ (Nat.lt_succ_self _)
  · exact Prod.Lex.left _ _ (by rw [Finset.card_insert_of_notMem _hs]; omega)
  · exact Prod.Lex.left _ _ (by rw [Finset.card_insert_of_notMem _hs]; omega)

section

variable (limit : Nat) (visit : σ → Visit σ ν) (start : σ)

/-- What holds at every turn of the loop. -/
structure Exploring (noted : Bool) (pending : List σ) (visited : Finset σ) : Prop where
  reached : ∀ s, s ∈ visited ∨ s ∈ pending → Reaches visit start s
  closed : ∀ s ∈ visited, ∀ next, visit s = .go next → ∀ t ∈ next, t ∈ visited ∨ t ∈ pending
  calm : ∀ s ∈ visited, ∀ v, visit s ≠ .stop v
  started : start ∈ visited ∨ start ∈ pending
  noted_iff : noted = true ↔ ∃ s ∈ visited, visit s = .note
  within : visited.card ≤ limit

/-- What the result of a search says about the reachable states. -/
inductive Explained : SearchResult ν → Prop
  | exhausted (states : Finset σ) : limit < states.card → (∀ s ∈ states, Reaches visit start s) → Explained .exhausted
  | stopped (s : σ) (v : ν) : Reaches visit start s → visit s = .stop v → Explained (.stopped v)
  | finished (states : Finset σ) (noted : Bool) : states.card ≤ limit → (∀ s, s ∈ states ↔ Reaches visit start s) →
      (∀ s ∈ states, ∀ v, visit s ≠ .stop v) → (noted = true ↔ ∃ s ∈ states, visit s = .note) →
      Explained (.finished noted)

end

variable {limit : Nat} {visit : σ → Visit σ ν} {start : σ}

omit [DecidableEq σ] in
theorem exploring_start (limit : Nat) (visit : σ → Visit σ ν) (start : σ) :
    Exploring limit visit start false [start] ∅ where
  reached s hs := by
    rcases hs with hs | hs
    · exact absurd hs (Finset.notMem_empty s)
    · rw [List.mem_singleton.1 hs]
      exact .refl
  closed s hs := absurd hs (Finset.notMem_empty s)
  calm s hs := absurd hs (Finset.notMem_empty s)
  started := .inr List.mem_cons_self
  noted_iff := by simp
  within := Nat.zero_le _

omit [DecidableEq σ] in
/-- A search that has nothing pending has visited exactly the reachable states. -/
theorem Exploring.visited_iff {noted : Bool} {visited : Finset σ} (h : Exploring limit visit start noted [] visited)
    (s : σ) : s ∈ visited ↔ Reaches visit start s := by
  refine ⟨fun hs => h.reached s (.inl hs), fun hs => ?_⟩
  induction hs with
  | refl => exact h.started.resolve_right (List.not_mem_nil)
  | tail _ hstep ih =>
    obtain ⟨next, hnext, ht⟩ := hstep
    exact (h.closed _ ih next hnext _ ht).resolve_right (List.not_mem_nil)

/-- Visiting one more state, which does not end the search. -/
theorem Exploring.visit_next {noted : Bool} {s : σ} {pending : List σ} {visited : Finset σ} (noted' : Bool)
    (next : List σ) (h : Exploring limit visit start noted (s :: pending) visited) (hlimit : visited.card < limit)
    (hs : s ∉ visited) (hgo : ∀ l, visit s = .go l → next = l) (hnext : ∀ t ∈ next, Reaches visit start t)
    (hcalm : ∀ v, visit s ≠ .stop v) (hnoted : noted' = true ↔ noted = true ∨ visit s = .note) :
    Exploring limit visit start noted' (next.reverse ++ pending) (insert s visited) where
  reached t ht := by
    simp only [Finset.mem_insert, List.mem_append, List.mem_reverse] at ht
    rcases ht with (rfl | ht) | ht | ht
    · exact h.reached t (.inr List.mem_cons_self)
    · exact h.reached t (.inl ht)
    · exact hnext t ht
    · exact h.reached t (.inr (List.mem_cons_of_mem _ ht))
  closed t ht l hl u hu := by
    simp only [Finset.mem_insert, List.mem_append, List.mem_reverse] at ht ⊢
    rcases ht with rfl | ht
    · rw [hgo l hl]
      exact .inr (.inl hu)
    · rcases h.closed t ht l hl u hu with hv | hp
      · exact .inl (.inr hv)
      · rcases List.mem_cons.1 hp with rfl | hp
        · exact .inl (.inl rfl)
        · exact .inr (.inr hp)
  calm t ht := by
    rcases Finset.mem_insert.1 ht with rfl | ht
    · exact hcalm
    · exact h.calm t ht
  started := by
    simp only [Finset.mem_insert, List.mem_append, List.mem_reverse]
    rcases h.started with hv | hp
    · exact .inl (.inr hv)
    · rcases List.mem_cons.1 hp with rfl | hp
      · exact .inl (.inl rfl)
      · exact .inr (.inr hp)
  noted_iff := by
    rw [hnoted, h.noted_iff]
    simp only [Finset.mem_insert, exists_eq_or_imp]
    exact or_comm
  within := by
    rw [Finset.card_insert_of_notMem hs]
    exact hlimit

/-- **The result of a search says what is reachable.** -/
theorem explained_explore (noted : Bool) (pending : List σ) (visited : Finset σ)
    (h : Exploring limit visit start noted pending visited) :
    Explained limit visit start (explore limit visit noted pending visited) := by
  fun_induction explore limit visit noted pending visited with
  | case1 noted visited => exact .finished visited noted h.within h.visited_iff h.calm h.noted_iff
  | case2 noted visited s pending hs ih =>
    -- a state already visited is dropped
    have hmem : ∀ t, t ∈ visited ∨ t ∈ s :: pending → t ∈ visited ∨ t ∈ pending := by
      rintro t (ht | ht)
      · exact .inl ht
      · rcases List.mem_cons.1 ht with rfl | ht
        · exact .inl hs
        · exact .inr ht
    refine ih ⟨fun t ht => h.reached t (ht.imp_right (List.mem_cons_of_mem _)), ?_, h.calm, hmem _ h.started,
      h.noted_iff, h.within⟩
    exact fun t ht next hnext u hu => hmem u (h.closed t ht next hnext u hu)
  | case3 noted visited s pending hs hlimit =>
    refine .exhausted (insert s visited) ?_ ?_
    · rw [Finset.card_insert_of_notMem hs]
      exact Nat.lt_succ_of_le hlimit
    · intro t ht
      rcases Finset.mem_insert.1 ht with rfl | ht
      · exact h.reached t (.inr List.mem_cons_self)
      · exact h.reached t (.inl ht)
  | case4 noted visited s pending hs hlimit v hv => exact .stopped s v (h.reached s (.inr List.mem_cons_self)) hv
  | case5 noted visited s pending hs hlimit hv ih =>
    have hnext := h.visit_next true [] (Nat.lt_of_not_le hlimit) hs (by simp [hv]) (by simp) (by simp [hv])
      (by simp [hv])
    exact ih hnext
  | case6 noted visited s pending hs hlimit next hv ih =>
    have hreach : ∀ t ∈ next, Reaches visit start t := fun t ht =>
      (h.reached s (.inr List.mem_cons_self)).tail ⟨next, hv, ht⟩
    exact ih (h.visit_next noted next (Nat.lt_of_not_le hlimit) hs (by simp [hv]) hreach (by simp [hv]) (by simp [hv]))

/-- The verdict of a search is that of a state it visited. -/
theorem explore_stopped {v : ν} (h : explore limit visit false [start] ∅ = .stopped v) : ∃ s, visit s = .stop v := by
  have hspec := explained_explore false [start] ∅ (exploring_start limit visit start)
  rw [h] at hspec
  cases hspec with
  | stopped s _ _ hv => exact ⟨s, hv⟩

/-- **When a search finishes**: no reachable state ends it, the reachable states fit the budget, and it noted a state
exactly if one of them is to be noted. -/
theorem explore_finished_iff {noted : Bool} : explore limit visit false [start] ∅ = .finished noted ↔
    (∀ s, Reaches visit start s → ∀ v, visit s ≠ .stop v) ∧
    (∃ states : Finset σ, states.card ≤ limit ∧ ∀ s, Reaches visit start s → s ∈ states) ∧
    (noted = true ↔ ∃ s, Reaches visit start s ∧ visit s = .note) := by
  have hspec := explained_explore false [start] ∅ (exploring_start limit visit start)
  constructor
  · intro heq
    rw [heq] at hspec
    cases hspec with
    | finished states _ hcard hmem hcalm hnoted =>
      refine ⟨fun s hs => hcalm s ((hmem s).2 hs), ⟨states, hcard, fun s => (hmem s).2⟩, ?_⟩
      simpa only [hmem] using hnoted
  · rintro ⟨hcalm, ⟨bound, hbound, hall⟩, hnoted⟩
    generalize explore limit visit false [start] ∅ = result at hspec
    cases hspec with
    | exhausted states hcard hmem =>
      have hle := Finset.card_le_card (fun s hs => hall s (hmem s hs) : states ⊆ bound)
      omega
    | stopped s v hs hv => exact absurd hv (hcalm s hs v)
    | finished states noted' _ hmem _ hnoted' =>
      simp only [hmem] at hnoted'
      rw [Bool.eq_iff_iff.2 (hnoted'.trans hnoted.symm)]

theorem explore_finishes_iff : (∃ noted, explore limit visit false [start] ∅ = .finished noted) ↔
    (∀ s, Reaches visit start s → ∀ v, visit s ≠ .stop v) ∧
    ∃ states : Finset σ, states.card ≤ limit ∧ ∀ s, Reaches visit start s → s ∈ states := by
  classical
  constructor
  · rintro ⟨noted, hfinished⟩
    obtain ⟨hcalm, hbound, -⟩ := explore_finished_iff.1 hfinished
    exact ⟨hcalm, hbound⟩
  · rintro ⟨hcalm, hbound⟩
    exact ⟨decide (∃ s, Reaches visit start s ∧ visit s = .note),
      explore_finished_iff.2 ⟨hcalm, hbound, decide_eq_true_iff⟩⟩

omit [DecidableEq σ] in
/-- A set has at most `n` elements when a list of at most `n` holds them all. -/
theorem encard_le_iff {S : Set σ} {n : Nat} :
    S.encard ≤ n ↔ ∃ states : Finset σ, states.card ≤ n ∧ ∀ s ∈ S, s ∈ states := by
  constructor
  · intro h
    have hfinite : S.Finite := Set.finite_of_encard_le_coe h
    refine ⟨hfinite.toFinset, ?_, fun s hs => hfinite.mem_toFinset.2 hs⟩
    rw [hfinite.encard_eq_coe_toFinset_card] at h
    exact_mod_cast h
  · rintro ⟨states, hcard, hall⟩
    have hsubset : S ⊆ (states : Set σ) := hall
    calc S.encard ≤ (states : Set σ).encard := Set.encard_le_encard hsubset
      _ = states.card := Set.encard_coe_eq_coe_finsetCard states
      _ ≤ n := by exact_mod_cast hcard

/-- **Whether and how a search finishes does not depend on the order of exploration.** -/
theorem explore_finished_congr {visit' : σ → Visit σ ν} (h : ∀ s, Visit.Alike (visit s) (visit' s)) {noted : Bool} :
    explore limit visit false [start] ∅ = .finished noted ↔ explore limit visit' false [start] ∅ = .finished noted := by
  have hreach : ∀ s, Reaches visit start s ↔ Reaches visit' start s := fun s =>
    ⟨reaches_of_alike h, reaches_of_alike (fun s => (h s).symm)⟩
  simp only [explore_finished_iff, hreach, (h _).eq_stop_iff, (h _).eq_note_iff, ne_eq]

end Lib
