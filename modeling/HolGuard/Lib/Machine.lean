import Mathlib
/-!
# Machines and their runs

A machine answers each input with an output and a new state.  `trace` is the whole history of a run, inputs with their
outputs; `run_invariant` is the induction every safety proof over runs uses, with the history available to the
invariant; `trace_split` locates one event of a history at the state it happened in.  `steps` keeps the states around
each event, `pairwise_steps` carries what one step guarantees to every later one, and `history_invariant` is the
induction for invariants that speak of all steps before.
-/
namespace Lib

structure Machine (σ ι ο : Type) where
  step : σ → ι → σ × ο

namespace Machine

variable {σ ι ο : Type} (m : Machine σ ι ο)

def final : σ → List ι → σ
  | s, [] => s
  | s, i :: is => final (m.step s i).1 is

/-- What a run did: each input with the output it got. -/
def trace : σ → List ι → List (ι × ο)
  | _, [] => []
  | s, i :: is => (i, (m.step s i).2) :: trace (m.step s i).1 is

@[simp] theorem final_nil (s : σ) : m.final s [] = s := rfl

@[simp] theorem trace_nil (s : σ) : m.trace s [] = [] := rfl

@[simp] theorem final_cons (s : σ) (i : ι) (is : List ι) : m.final s (i :: is) = m.final (m.step s i).1 is := rfl

@[simp] theorem trace_cons (s : σ) (i : ι) (is : List ι) :
    m.trace s (i :: is) = (i, (m.step s i).2) :: m.trace (m.step s i).1 is := rfl

theorem final_append : ∀ (s : σ) (is js : List ι), m.final s (is ++ js) = m.final (m.final s is) js
  | _, [], _ => rfl
  | s, i :: is, js => final_append (m.step s i).1 is js

/-- **The invariant rule.**  What holds of the start and is kept by every step, with the history before it, holds of
every run and its whole history. -/
theorem run_invariant (P : List (ι × ο) → σ → Prop)
    (hstep : ∀ h s i, P h s → P (h ++ [(i, (m.step s i).2)]) (m.step s i).1) :
    ∀ (is : List ι) (h : List (ι × ο)) (s : σ), P h s → P (h ++ m.trace s is) (m.final s is)
  | [], h, s, h0 => by simpa using h0
  | i :: is, h, s, h0 => by
    have := run_invariant P hstep is _ _ (hstep h s i h0)
    simpa using this

theorem final_invariant (P : σ → Prop) (hstep : ∀ s i, P s → P (m.step s i).1) (is : List ι) (s : σ) (h0 : P s) :
    P (m.final s is) :=
  m.run_invariant (fun _ => P) (fun _ s i => hstep s i) is [] s h0

/-- **Every event of a history happened at the state its prefix reached.** -/
theorem trace_split : ∀ (is : List ι) (s : σ) (pre : List (ι × ο)) (e : ι × ο) (post : List (ι × ο)),
    m.trace s is = pre ++ e :: post →
      ∃ is₁ is₂, is = is₁ ++ e.1 :: is₂ ∧ m.trace s is₁ = pre ∧ (m.step (m.final s is₁) e.1).2 = e.2 ∧
        m.trace (m.step (m.final s is₁) e.1).1 is₂ = post
  | [], _, pre, _, _, h => by cases pre <;> cases h
  | i :: is, s, [], e, post, h => by
    simp only [trace_cons, List.nil_append, List.cons.injEq] at h
    obtain ⟨rfl, rfl⟩ := h
    exact ⟨[], is, rfl, rfl, rfl, rfl⟩
  | i :: is, s, p :: pre, e, post, h => by
    simp only [trace_cons, List.cons_append, List.cons.injEq] at h
    obtain ⟨rfl, h⟩ := h
    obtain ⟨is₁, is₂, rfl, hpre, he, hpost⟩ := trace_split is _ pre e post h
    exact ⟨i :: is₁, is₂, rfl, by rw [trace_cons, hpre], he, hpost⟩

/-! ## Steps with the states around them -/

/-- One step of a run. -/
structure Taken (σ ι ο : Type) where
  before : σ
  input : ι
  output : ο
  after : σ

def steps : σ → List ι → List (Taken σ ι ο)
  | _, [] => []
  | s, i :: is => ⟨s, i, (m.step s i).2, (m.step s i).1⟩ :: steps (m.step s i).1 is

variable {m}

/-- What every step keeps holds before each of them, and each of them is a step of the machine on an input. -/
theorem steps_invariant (P : σ → Prop) : ∀ (is : List ι) (s : σ), (∀ s i, i ∈ is → P s → P (m.step s i).1) → P s →
    ∀ t ∈ m.steps s is, P t.before ∧ t.input ∈ is ∧ m.step t.before t.input = (t.after, t.output)
  | [], _, _, _, t, ht => by cases ht
  | i :: is, s, hstep, h0, t, ht => by
    rcases List.mem_cons.1 ht with rfl | ht
    · exact ⟨h0, List.mem_cons_self, rfl⟩
    · obtain ⟨hp, hi, ht⟩ := steps_invariant P is _ (fun s j hj => hstep s j (List.mem_cons_of_mem i hj))
        (hstep s i List.mem_cons_self h0) t ht
      exact ⟨hp, List.mem_cons_of_mem i hi, ht⟩

/-- What the steps of a run keep holds before each of them. -/
theorem steps_carry (Q : σ → Prop) : ∀ (is : List ι) (s : σ), (∀ u ∈ m.steps s is, Q u.before → Q u.after) → Q s →
    ∀ u ∈ m.steps s is, Q u.before
  | [], _, _, _, u, hu => by cases hu
  | i :: is, s, hkeep, h0, u, hu => by
    rcases List.mem_cons.1 hu with rfl | hu
    · exact h0
    · exact steps_carry Q is _ (fun v hv => hkeep v (List.mem_cons_of_mem _ hv)) (hkeep _ List.mem_cons_self h0) u hu

/-- **The rule of guarantees.**  When a step establishes something of the state after it that every later step keeps, it
holds before every later step. -/
theorem pairwise_steps (R : Taken σ ι ο → σ → Prop) : ∀ (is : List ι) (s : σ),
    (∀ t, ∀ u ∈ m.steps s is, R t u.before → R t u.after) → (∀ t ∈ m.steps s is, R t t.after) →
    (m.steps s is).Pairwise (fun t u => R t u.before)
  | [], _, _, _ => List.Pairwise.nil
  | i :: is, s, hkeep, hfirst => by
    have hlater : ∀ u ∈ m.steps (m.step s i).1 is, u ∈ m.steps s (i :: is) := fun u hu => List.mem_cons_of_mem _ hu
    refine List.Pairwise.cons ?_ (pairwise_steps R is _ (fun t u hu => hkeep t u (hlater u hu))
      (fun t ht => hfirst t (hlater t ht)))
    exact steps_carry (R ⟨s, i, (m.step s i).2, (m.step s i).1⟩) is _ (fun u hu => hkeep _ u (hlater u hu))
      (hfirst _ List.mem_cons_self)

/-- Each step of a run is the machine's answer to its input. -/
theorem step_of_mem {is : List ι} {s : σ} {t : Taken σ ι ο} (h : t ∈ m.steps s is) :
    m.step t.before t.input = (t.after, t.output) :=
  (steps_invariant (fun _ => True) is s (fun _ _ _ _ => trivial) trivial t h).2.2

/-- **The rule of histories.**  What holds of the empty history and is kept by each step of the run, with the steps
before it, holds before each step of the run and its past. -/
theorem history_invariant (P : List (Taken σ ι ο) → σ → Prop) : ∀ (is : List ι) (past : List (Taken σ ι ο)) (s : σ),
    P past s →
      (∀ pre t post, m.steps s is = pre ++ t :: post → P (past ++ pre) t.before → P (past ++ pre ++ [t]) t.after) →
      ∀ pre t post, m.steps s is = pre ++ t :: post → P (past ++ pre) t.before
  | [], _, _, _, _, pre, _, _, h => by cases pre <;> cases h
  | i :: is, past, s, h0, hstep, [], t, post, h => by
    cases (List.cons.inj h).1
    simpa using h0
  | i :: is, past, s, h0, hstep, p :: pre, t, post, h => by
    obtain ⟨rfl, hlater⟩ := List.cons.inj h
    have hfirst := hstep [] ⟨s, i, (m.step s i).2, (m.step s i).1⟩ _ rfl (by simpa using h0)
    have hrest := history_invariant P is (past ++ [⟨s, i, (m.step s i).2, (m.step s i).1⟩]) (m.step s i).1
      (by simpa using hfirst) (fun pre' u post' hu hp => by
        have := hstep (⟨s, i, (m.step s i).2, (m.step s i).1⟩ :: pre') u post' (congrArg _ hu)
        simp only [List.append_assoc, List.cons_append, List.nil_append] at hp this ⊢
        exact this hp) pre t post hlater
    simpa using hrest

end Machine
end Lib
