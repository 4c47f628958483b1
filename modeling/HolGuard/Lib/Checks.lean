import Mathlib
/-!
# Chains of checks

A function that refuses with the first check that fails is a chain of conditionals or of binds; it succeeds exactly when
no check fails and the rest succeeds.  Over a list, `mapM` is such a chain and `find?` the search for what passes.
-/
namespace Lib

variable {ε α β : Type}

theorem ite_error_eq_ok {c : Prop} [Decidable c] {e : ε} {x : Except ε α} {a : α} :
    (if c then .error e else x) = .ok a ↔ ¬ c ∧ x = .ok a := by
  by_cases h : c
  · simp [h]
  · simp [h]

theorem ite_some_eq_none {c : Prop} [Decidable c] {a : α} {x : Option α} :
    (if c then some a else x) = none ↔ ¬ c ∧ x = none := by
  by_cases h : c
  · simp [h]
  · simp [h]

theorem bind_eq_ok {x : Except ε α} {f : α → Except ε β} {b : β} :
    (x >>= f) = .ok b ↔ ∃ a, x = .ok a ∧ f a = .ok b := by
  cases x with
  | error e => simp [bind, Except.bind]
  | ok a => simp [bind, Except.bind]

theorem map_eq_ok {x : Except ε α} {f : α → β} {b : β} : x.map f = .ok b ↔ ∃ a, x = .ok a ∧ f a = b := by
  cases x with
  | error e => simp [Except.map]
  | ok a => simp [Except.map]

theorem mapM_eq_some {f : α → Option β} : ∀ {l : List α} {r : List β}, l.mapM f = some r →
    (∀ x ∈ l, ∃ y ∈ r, f x = some y) ∧ ∀ y ∈ r, ∃ x ∈ l, f x = some y
  | [], r, h => by
    simp only [List.mapM_nil, Option.pure_def, Option.some.injEq] at h
    subst h
    exact ⟨fun _ hx => absurd hx List.not_mem_nil, fun _ hy => absurd hy List.not_mem_nil⟩
  | a :: l, r, h => by
    simp only [List.mapM_cons, Option.bind_eq_bind, Option.bind_eq_some_iff, Option.pure_def, Option.some.injEq] at h
    obtain ⟨b, hb, r', hr, rfl⟩ := h
    obtain ⟨hfrom, hto⟩ := mapM_eq_some hr
    refine ⟨fun x hx => ?_, fun y hy => ?_⟩
    · rcases List.mem_cons.1 hx with rfl | hx
      · exact ⟨b, List.mem_cons_self, hb⟩
      · obtain ⟨y, hy, hxy⟩ := hfrom x hx
        exact ⟨y, List.mem_cons_of_mem b hy, hxy⟩
    · rcases List.mem_cons.1 hy with rfl | hy
      · exact ⟨a, List.mem_cons_self, hb⟩
      · obtain ⟨x, hx, hxy⟩ := hto y hy
        exact ⟨x, List.mem_cons_of_mem a hx, hxy⟩

theorem find?_of_nodup [DecidableEq β] {f : α → β} {l : List α} (hnd : (l.map f).Nodup) {a : α} (h : a ∈ l) :
    l.find? (fun b => f b = f a) = some a := by
  obtain ⟨b, hb⟩ : ∃ b, l.find? (fun b => f b = f a) = some b :=
    Option.isSome_iff_exists.1 (List.find?_isSome.2 ⟨a, h, decide_eq_true rfl⟩)
  have hkey : f b = f a := by simpa using List.find?_some hb
  rw [hb, List.inj_on_of_nodup_map hnd (List.mem_of_find?_eq_some hb) h hkey]

theorem find?_eq_of_imp {p q : α → Bool} {xs : List α} (hpq : ∀ x, q x = true → p x = true)
    (hq : ∀ a, xs.find? p = some a → q a = true) : xs.find? q = xs.find? p := by
  cases h : xs.find? p with
  | none => exact List.find?_eq_none.2 (fun x hx hqx => List.find?_eq_none.1 h x hx (hpq x hqx))
  | some a =>
    obtain ⟨_, front, back, rfl, hfront⟩ := List.find?_eq_some_iff_append.1 h
    refine List.find?_eq_some_iff_append.2 ⟨hq a h, front, back, rfl, fun x hx => ?_⟩
    have := hfront x hx
    cases hqx : q x with
    | false => rfl
    | true => simp [hpq x hqx] at this

end Lib
