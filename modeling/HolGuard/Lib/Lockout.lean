import Mathlib
/-!
# A failure budget with a lockout

A counter of failures that, at the latest when it reaches its limit, closes for a span of time.  `window_le` bounds the
failures of every run in every half-open window of that span by the limit, whatever the counter held at its start: a
window that sees the counter close sees no failure after it.
-/
namespace Lib

structure Lockout where
  count : Nat
  closedUntil : Option Int

namespace Lockout

def OpenAt (l : Lockout) (t : Int) : Prop := ∀ u ∈ l.closedUntil, u ≤ t

variable (limit : Nat) (span : Int)

/-- One event at a time: nothing happens to the budget, a failure is counted, or it closes the budget. -/
inductive Step : Lockout → Int → Bool → Lockout → Prop
  | idle (l : Lockout) (t : Int) : Step l t false l
  | counted (l : Lockout) (t : Int) (hopen : l.OpenAt t) (hcount : l.count + 1 < limit) :
      Step l t true ⟨l.count + 1, l.closedUntil⟩
  | closed (l : Lockout) (t u : Int) (n : Nat) (hopen : l.OpenAt t) (hspan : t + span ≤ u) : Step l t true ⟨n, some u⟩

/-- A run of a budget: its events, each with its time and whether it failed. -/
inductive Runs : Lockout → List (Int × Bool) → Prop
  | nil (l : Lockout) : Runs l []
  | cons {l m : Lockout} {t : Int} {failed : Bool} {es : List (Int × Bool)} (hstep : Step limit span l t failed m)
      (hrest : Runs m es) : Runs l ((t, failed) :: es)

/-- The failures from `start` to before `stop`. -/
def failures (start stop : Int) (es : List (Int × Bool)) : List (Int × Bool) :=
  es.filter (fun x => x.2 && (decide (start ≤ x.1) && decide (x.1 < stop)))

variable {limit span}

theorem failures_cons (start stop t : Int) (failed : Bool) (es : List (Int × Bool)) :
    (failures start stop ((t, failed) :: es)).length =
      (if failed = true ∧ start ≤ t ∧ t < stop then 1 else 0) + (failures start stop es).length := by
  by_cases h : failed = true ∧ start ≤ t ∧ t < stop
  · simp [failures, h, Nat.add_comm]
  · rw [if_neg h, failures, List.filter_cons_of_neg (by simpa [and_assoc] using h), Nat.zero_add]
    rfl

theorem failures_late {start stop : Int} : ∀ {es : List (Int × Bool)}, (∀ x ∈ es, stop ≤ x.1) →
    (failures start stop es).length = 0
  | [], _ => rfl
  | (t, failed) :: es, h => by
    have ht : stop ≤ t := h (t, failed) List.mem_cons_self
    rw [failures_cons, if_neg (by omega), failures_late (fun x hx => h x (List.mem_cons_of_mem _ hx))]

/-- A budget that is closed until the window ends takes no failure in it. -/
theorem Runs.closed_none {start stop u : Int} (hu : stop ≤ u) : ∀ {l : Lockout} {es : List (Int × Bool)},
    Runs limit span l es → l.closedUntil = some u → es.Pairwise (fun x y => x.1 ≤ y.1) →
      (failures start stop es).length = 0
  | _, _, .nil _, _, _ => rfl
  | l, _, @Runs.cons _ _ _ _ t _ es hstep hrest, hl, hsorted => by
    have hafter : l.OpenAt t → ∀ x ∈ es, stop ≤ x.1 := fun hopen x hx => by
      have := hopen u hl
      have := (List.pairwise_cons.1 hsorted).1 x hx
      simp only at this
      omega
    have hlate : l.OpenAt t → stop ≤ t := fun hopen => by
      have := hopen u hl
      omega
    rw [failures_cons]
    cases hstep with
    | idle =>
      rw [if_neg (by simp), Nat.zero_add]
      exact Runs.closed_none hu hrest hl (List.pairwise_cons.1 hsorted).2
    | counted hopen _ =>
      have := hlate hopen
      rw [if_neg (by omega), failures_late (hafter hopen)]
    | closed v n hopen _ =>
      have := hlate hopen
      rw [if_neg (by omega), failures_late (hafter hopen)]

/-- From the start of the window on, what is left of the budget bounds the failures. -/
theorem Runs.within_le {start : Int} : ∀ {l : Lockout} {es : List (Int × Bool)}, Runs limit span l es →
    (∀ x ∈ es, start ≤ x.1) → es.Pairwise (fun x y => x.1 ≤ y.1) →
      (failures start (start + span) es).length ≤ max (limit - l.count) 1
  | _, _, .nil _, _, _ => Nat.zero_le _
  | l, _, @Runs.cons _ _ _ _ t _ es hstep hrest, hstart, hsorted => by
    have ht : start ≤ t := hstart (t, _) List.mem_cons_self
    have hstart' : ∀ x ∈ es, start ≤ x.1 := fun x hx => hstart x (List.mem_cons_of_mem _ hx)
    have hsorted' := (List.pairwise_cons.1 hsorted).2
    rw [failures_cons]
    cases hstep with
    | idle =>
      rw [if_neg (by simp), Nat.zero_add]
      exact Runs.within_le hrest hstart' hsorted'
    | counted hopen hcount =>
      have := Runs.within_le hrest hstart' hsorted'
      simp only at this
      split <;> omega
    | closed u n hopen hspan =>
      rw [Runs.closed_none (by omega) hrest rfl hsorted']
      split <;> omega

/-- **At most `limit` failures in every window of the span.** -/
theorem Runs.window_le (hlimit : 0 < limit) (start : Int) : ∀ {l : Lockout} {es : List (Int × Bool)},
    Runs limit span l es → es.Pairwise (fun x y => x.1 ≤ y.1) → (failures start (start + span) es).length ≤ limit
  | _, _, .nil _, _ => Nat.zero_le _
  | l, _, @Runs.cons _ _ _ _ t failed es hstep hrest, hsorted => by
    by_cases ht : start ≤ t
    · have hstart : ∀ x ∈ (t, failed) :: es, start ≤ x.1 :=
        List.forall_mem_cons.2 ⟨ht, fun x hx => ht.trans ((List.pairwise_cons.1 hsorted).1 x hx)⟩
      have := Runs.within_le (Runs.cons hstep hrest) hstart hsorted
      omega
    · -- an event before the window only moves the counter the window starts with
      rw [failures_cons, if_neg (by omega), Nat.zero_add]
      exact Runs.window_le hlimit start hrest (List.pairwise_cons.1 hsorted).2

end Lockout
end Lib
