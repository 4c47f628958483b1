import HolGuard.Lib.Checks
/-!
# Finite maps with distinct keys

A map is the list of its pairs in insertion order, and carries the proof that its keys are distinct, so a map with two
values under one key cannot be built.  `get?_eq_some` turns every lookup into membership; the lookups after `retain`,
`modify` and `insert` are read off it.
-/
namespace Lib

structure KeyMap (κ α : Type) where
  pairs : List (κ × α)
  keysNodup : (pairs.map Prod.fst).Nodup

namespace KeyMap

variable {κ α : Type}

def empty : KeyMap κ α := ⟨[], List.nodup_nil⟩

def size (m : KeyMap κ α) : Nat := m.pairs.length

def retain (m : KeyMap κ α) (p : κ → α → Bool) : KeyMap κ α :=
  ⟨m.pairs.filter (fun q => p q.1 q.2), m.keysNodup.sublist (List.filter_sublist.map Prod.fst)⟩

@[simp] theorem size_empty : (empty : KeyMap κ α).size = 0 := rfl

theorem size_retain_le (m : KeyMap κ α) (p : κ → α → Bool) : (m.retain p).size ≤ m.size :=
  List.length_filter_le _ _

variable [DecidableEq κ]

def get? (m : KeyMap κ α) (k : κ) : Option α := (m.pairs.find? (fun q => q.1 = k)).map Prod.snd

def contains (m : KeyMap κ α) (k : κ) : Bool := (m.get? k).isSome

theorem map_fst_modify (pairs : List (κ × α)) (k : κ) (f : α → α) :
    (pairs.map (fun q => if q.1 = k then (q.1, f q.2) else q)).map Prod.fst = pairs.map Prod.fst := by
  rw [List.map_map]
  refine List.map_congr_left (fun q _ => ?_)
  simp only [Function.comp]
  split <;> rfl

/-- Change the value under `k`, when there is one; the order of the keys is kept. -/
def modify (m : KeyMap κ α) (k : κ) (f : α → α) : KeyMap κ α :=
  ⟨m.pairs.map (fun q => if q.1 = k then (q.1, f q.2) else q), by rw [map_fst_modify]; exact m.keysNodup⟩

variable {m : KeyMap κ α} {k : κ}

theorem mem_of_get? {a : α} (h : m.get? k = some a) : (k, a) ∈ m.pairs := by
  unfold get? at h
  obtain ⟨q, hq, rfl⟩ := Option.map_eq_some_iff.1 h
  have hk : q.1 = k := by simpa using List.find?_some hq
  rw [← hk]
  exact List.mem_of_find?_eq_some hq

/-- **A lookup is membership**, since the keys are distinct. -/
theorem get?_eq_some {a : α} : m.get? k = some a ↔ (k, a) ∈ m.pairs := by
  constructor
  · exact mem_of_get?
  · intro h
    unfold get?
    rw [find?_of_nodup m.keysNodup h]
    rfl

@[simp] theorem get?_empty (k : κ) : (empty : KeyMap κ α).get? k = none := rfl

theorem get?_retain {p : κ → α → Bool} {a : α} :
    (m.retain p).get? k = some a ↔ m.get? k = some a ∧ p k a = true := by
  rw [get?_eq_some, get?_eq_some]
  simp [retain]

@[simp] theorem size_modify (m : KeyMap κ α) (k : κ) (f : α → α) : (m.modify k f).size = m.size := by
  simp [size, modify]

theorem get?_modify (m : KeyMap κ α) (k j : κ) (f : α → α) :
    (m.modify k f).get? j = if j = k then (m.get? j).map f else m.get? j := by
  have hfind : ∀ l : List (κ × α), (l.map (fun q => if q.1 = k then (q.1, f q.2) else q)).find? (fun q => q.1 = j) =
      (l.find? (fun q => q.1 = j)).map (fun q => if q.1 = k then (q.1, f q.2) else q) := by
    intro l
    induction l with
    | nil => rfl
    | cons q l ih =>
      rw [List.map_cons, List.find?_cons, List.find?_cons, ih]
      have hk : (if q.1 = k then (q.1, f q.2) else q).1 = q.1 := by split <;> rfl
      rw [hk]
      split <;> rfl
  unfold get? modify
  rw [hfind, Option.map_map]
  cases hq : m.pairs.find? (fun q => q.1 = j) with
  | none => simp
  | some q =>
    have hj : q.1 = j := by simpa using List.find?_some hq
    subst hj
    by_cases hk : q.1 = k <;> simp [hk]

/-- **A change that is undone leaves the map as it was.** -/
theorem modify_modify_of_undo (m : KeyMap κ α) (k : κ) (f g : α → α) (h : ∀ a, m.get? k = some a → g (f a) = a) :
    (m.modify k f).modify k g = m := by
  obtain ⟨pairs, hnd⟩ := m
  simp only [modify, mk.injEq, List.map_map]
  conv => rhs; rw [← List.map_id pairs]
  refine List.map_congr_left (fun q hq => ?_)
  simp only [Function.comp, id]
  by_cases hk : q.1 = k
  · have := h q.2 (get?_eq_some.2 (by rw [← hk]; exact hq))
    simp [hk, this, Prod.ext_iff]
  · simp [hk]

/-- Put `a` under `k`: in place when the key is there, at the end when it is new. -/
def insert (m : KeyMap κ α) (k : κ) (a : α) : KeyMap κ α :=
  if h : k ∈ m.pairs.map Prod.fst then m.modify k (fun _ => a)
  else ⟨m.pairs ++ [(k, a)], by
    rw [List.map_append, List.map_cons, List.map_nil, List.nodup_append]
    refine ⟨m.keysNodup, List.nodup_singleton _, fun x hx y hy hxy => h ?_⟩
    obtain rfl := List.mem_singleton.1 hy
    exact hxy ▸ hx⟩

theorem pairs_insert_of_mem (h : k ∈ m.pairs.map Prod.fst) (a : α) :
    (m.insert k a).pairs = m.pairs.map (fun q => if q.1 = k then (q.1, a) else q) := by
  simp only [insert, dif_pos h, modify]

theorem pairs_insert_of_notMem (h : k ∉ m.pairs.map Prod.fst) (a : α) :
    (m.insert k a).pairs = m.pairs ++ [(k, a)] := by
  simp only [insert, dif_neg h]

theorem mem_keys_iff : k ∈ m.pairs.map Prod.fst ↔ ∃ a, m.get? k = some a := by
  simp only [get?_eq_some, List.mem_map, Prod.exists, exists_and_right, exists_eq_right]

theorem get?_insert (m : KeyMap κ α) (k j : κ) (a : α) :
    (m.insert k a).get? j = if j = k then some a else m.get? j := by
  unfold insert
  split
  · rename_i h
    obtain ⟨b, hb⟩ := mem_keys_iff.1 h
    rw [get?_modify]
    by_cases hj : j = k
    · subst hj; simp [hb]
    · simp [hj]
  · rename_i h
    simp only [get?, List.find?_append]
    by_cases hj : j = k
    · subst hj
      have hn : m.pairs.find? (fun q => q.1 = j) = none := by
        rw [List.find?_eq_none]
        intro q hq hqj
        exact h (List.mem_map.2 ⟨q, hq, by simpa using hqj⟩)
      simp [hn]
    · simp [hj, Ne.symm hj]

theorem size_insert_of_none (a : α) (h : m.get? k = none) : (m.insert k a).size = m.size + 1 := by
  have hk : k ∉ m.pairs.map Prod.fst := fun hk => by
    obtain ⟨b, hb⟩ := mem_keys_iff.1 hk
    rw [h] at hb; cases hb
  simp [insert, hk, size]

end KeyMap
end Lib
