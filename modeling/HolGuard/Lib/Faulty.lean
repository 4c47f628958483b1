import Mathlib
/-!
# Programs whose writes may fail

A program reads and writes a state.  Each write is done, is lost, or takes effect although it is reported as failed; a
program that stops at a failed write is also what a crash at that write leaves behind.  `Runs` is the big-step reading,
whatever becomes of the writes, and its inversion rules take a program apart step by step.
-/
namespace Lib

/-- What becomes of a write. -/
inductive WriteOutcome where
  | done
  | lost
  | unreported
deriving DecidableEq

/-- A program over `σ`: it is told what becomes of its writes, and every write beyond the list is done. -/
def Faulty (σ α : Type) : Type := σ → List WriteOutcome → Except String α × σ × List WriteOutcome

namespace Faulty

variable {σ τ α β : Type}

instance : Monad (Faulty σ) where
  pure a := fun s ws => (.ok a, s, ws)
  bind c f := fun s ws =>
    match c s ws with
    | (.ok a, s', ws') => f a s' ws'
    | (.error e, s', ws') => (.error e, s', ws')

def fail (e : String) : Faulty σ α := fun s ws => (.error e, s, ws)

def lift (x : Except String α) : Faulty σ α := fun s ws => (x, s, ws)

def get : Faulty σ σ := fun s ws => (.ok s, s, ws)

/-- One write; `failure` is what its failure is reported as. -/
def write (f : σ → σ) (failure : String) : Faulty σ Unit := fun s ws =>
  match ws with
  | [] => (.ok (), f s, [])
  | .done :: ws => (.ok (), f s, ws)
  | .lost :: ws => (.error failure, s, ws)
  | .unreported :: ws => (.error failure, f s, ws)

/-- A check: the program ends with `e` if `c` holds. -/
def refuse (c : Prop) [Decidable c] (e : String) : Faulty σ Unit := if c then fail e else pure ()

/-- A step in memory, which nothing interrupts. -/
def act (f : σ → Except String α × σ) : Faulty σ α := fun s ws => ((f s).1, (f s).2, ws)

/-- A program on a part of the state. -/
def zoom (part : σ → τ) (set : τ → σ → σ) (c : Faulty τ α) : Faulty σ α := fun s ws =>
  let out := c (part s) ws
  (out.1, set out.2.1 s, out.2.2)

/-- An exception handler: the failures in `passed` end the program, every other one goes to the handler. -/
def rescue (passed : List String) (c : Faulty σ α) (handler : String → Faulty σ α) : Faulty σ α := fun s ws =>
  match c s ws with
  | (.ok a, s', ws') => (.ok a, s', ws')
  | (.error e, s', ws') => if e ∈ passed then (.error e, s', ws') else handler e s' ws'

/-- The program can end with this answer in that state. -/
def Runs (c : Faulty σ α) (s : σ) (r : Except String α) (s' : σ) : Prop :=
  ∃ ws, (c s ws).1 = r ∧ (c s ws).2.1 = s'

variable {s s' : σ} {r : Except String α}

theorem runs_pure {a : α} (h : Runs (pure a : Faulty σ α) s r s') : r = .ok a ∧ s' = s := by
  obtain ⟨ws, rfl, rfl⟩ := h
  exact ⟨rfl, rfl⟩

variable {e : String}

theorem runs_fail (h : Runs (fail e : Faulty σ α) s r s') : r = .error e ∧ s' = s := by
  obtain ⟨ws, rfl, rfl⟩ := h
  exact ⟨rfl, rfl⟩

theorem runs_lift {x : Except String α} (h : Runs (lift x : Faulty σ α) s r s') :
    r = x ∧ s' = s := by
  obtain ⟨ws, rfl, rfl⟩ := h
  exact ⟨rfl, rfl⟩

/-- **The rule for writes.** -/
theorem runs_write {f : σ → σ} {r : Except String Unit} (h : Runs (write f e) s r s') :
    (r = .ok () ∧ s' = f s) ∨ (r = .error e ∧ (s' = s ∨ s' = f s)) := by
  obtain ⟨ws, hr, hs⟩ := h
  unfold write at hr hs
  match ws with
  | [] => exact .inl ⟨hr.symm, hs.symm⟩
  | .done :: ws => exact .inl ⟨hr.symm, hs.symm⟩
  | .lost :: ws => exact .inr ⟨hr.symm, .inl hs.symm⟩
  | .unreported :: ws => exact .inr ⟨hr.symm, .inr hs.symm⟩

variable {c : Faulty σ α} {f : α → Faulty σ β}

/-- **The rule for sequences**: the first part fails, or it succeeds and the rest goes on from there. -/
theorem runs_bind {r : Except String β} (h : Runs (c >>= f) s r s') :
    (∃ e, r = .error e ∧ Runs c s (.error e) s') ∨ ∃ a t, Runs c s (.ok a) t ∧ Runs (f a) t r s' := by
  obtain ⟨ws, hr, hs⟩ := h
  simp only [bind] at hr hs
  rcases hc : c s ws with ⟨out, t, ws'⟩
  rw [hc] at hr hs
  cases out with
  | error e => exact .inl ⟨e, hr.symm, ws, by rw [hc], by rw [hc]; exact hs⟩
  | ok a => exact .inr ⟨a, t, ⟨ws, by rw [hc], by rw [hc]⟩, ws', hr, hs⟩

theorem runs_bind_ok {b : β} (h : Runs (c >>= f) s (.ok b) s') :
    ∃ a t, Runs c s (.ok a) t ∧ Runs (f a) t (.ok b) s' := by
  obtain ⟨e, he, -⟩ | h := runs_bind h
  · cases he
  · exact h

theorem runs_zoom {part : σ → τ} {set : τ → σ → σ} {c : Faulty τ α}
    (h : Runs (zoom part set c) s r s') : ∃ t, Runs c (part s) r t ∧ s' = set t s := by
  obtain ⟨ws, hr, hs⟩ := h
  exact ⟨_, ⟨ws, hr, rfl⟩, hs.symm⟩

theorem runs_rescue {passed : List String} {handler : String → Faulty σ α} (h : Runs (rescue passed c handler) s r s') :
    (Runs c s r s' ∧ ∀ e, r = .error e → e ∈ passed) ∨
      ∃ e t, e ∉ passed ∧ Runs c s (.error e) t ∧ Runs (handler e) t r s' := by
  obtain ⟨ws, hr, hs⟩ := h
  simp only [rescue] at hr hs
  rcases hc : c s ws with ⟨out, t, ws'⟩
  rw [hc] at hr hs
  cases out with
  | ok a => exact .inl ⟨⟨ws, by rw [hc]; exact hr, by rw [hc]; exact hs⟩, fun e he => by rw [← hr] at he; cases he⟩
  | error e =>
    by_cases he : e ∈ passed
    · simp only [he, if_true] at hr hs
      refine .inl ⟨⟨ws, by rw [hc]; exact hr, by rw [hc]; exact hs⟩, fun e' he' => ?_⟩
      rw [← hr] at he'
      cases he'
      exact he
    · simp only [he, if_false] at hr hs
      exact .inr ⟨e, t, he, ⟨ws, by rw [hc], by rw [hc]⟩, ws', hr, hs⟩

theorem runs_get_bind {f : σ → Faulty σ β} {r : Except String β} (h : Runs (get >>= f) s r s') :
    Runs (f s) s r s' :=
  h

theorem runs_refuse_bind {c : Prop} [Decidable c] {f : Unit → Faulty σ β} {r : Except String β}
    (h : Runs (refuse c e >>= f) s r s') :
    (c ∧ r = .error e ∧ s' = s) ∨ (¬ c ∧ Runs (f ()) s r s') := by
  unfold refuse at h
  by_cases hc : c
  · simp only [hc, if_true] at h
    obtain ⟨e', hr, hf⟩ | ⟨a, t, hf, -⟩ := runs_bind h
    · obtain ⟨he, hs⟩ := runs_fail hf
      cases he
      exact .inl ⟨hc, hr, hs⟩
    · cases (runs_fail hf).1
  · simp only [hc, if_false] at h
    exact .inr ⟨hc, h⟩

theorem runs_act {f : σ → Except String α × σ} (h : Runs (act f) s r s') :
    r = (f s).1 ∧ s' = (f s).2 := by
  obtain ⟨ws, rfl, rfl⟩ := h
  exact ⟨rfl, rfl⟩

theorem runs_lift_bind_of_ok {x : Except String α} {a : α} (hx : x = .ok a) {r : Except String β}
    (h : Runs (lift x >>= f) s r s') : Runs (f a) s r s' := by
  subst hx
  exact h

theorem runs_write_bind {g : σ → σ} {f : Unit → Faulty σ β} {r : Except String β} (h : Runs (write g e >>= f) s r s') :
    (r = .error e ∧ (s' = s ∨ s' = g s)) ∨ Runs (f ()) (g s) r s' := by
  obtain ⟨e', hr, hw⟩ | ⟨u, v, hw, hrest⟩ := runs_bind h
  · obtain ⟨hok, -⟩ | ⟨herr, hs⟩ := runs_write hw
    · cases hok
    · cases herr
      exact .inl ⟨hr, hs⟩
  · obtain ⟨-, rfl⟩ | ⟨herr, -⟩ := runs_write hw
    · exact .inr hrest
    · cases herr

/-! ## What holds after a run

The rules for a property of the answer and the last state: it holds wherever the first step may end the run, and where
the rest of the program ends. -/

section After

variable {r : Except String β} {P : Except String β → σ → Prop}

@[elab_as_elim]
theorem after_bind (h : Runs (c >>= f) s r s') (stop : ∀ e t, Runs c s (.error e) t → P (.error e) t)
    (go : ∀ a t, Runs c s (.ok a) t → Runs (f a) t r s' → P r s') : P r s' := by
  obtain ⟨e, rfl, hc⟩ | ⟨a, t, hc, hrest⟩ := runs_bind h
  · exact stop e s' hc
  · exact go a t hc hrest

@[elab_as_elim]
theorem after_pure {b : β} (h : Runs (pure b : Faulty σ β) s r s') (hb : P (.ok b) s) : P r s' := by
  obtain ⟨rfl, rfl⟩ := runs_pure h
  exact hb

@[elab_as_elim]
theorem after_fail (h : Runs (fail e : Faulty σ β) s r s') (he : P (.error e) s) : P r s' := by
  obtain ⟨rfl, rfl⟩ := runs_fail h
  exact he

@[elab_as_elim]
theorem after_refuse {c : Prop} [Decidable c] {f : Unit → Faulty σ β} (h : Runs (refuse c e >>= f) s r s')
    (stop : c → P (.error e) s) (go : ¬ c → Runs (f ()) s r s' → P r s') : P r s' := by
  obtain ⟨hc, rfl, rfl⟩ | ⟨hc, hrest⟩ := runs_refuse_bind h
  · exact stop hc
  · exact go hc hrest

@[elab_as_elim]
theorem after_lift {x : Except String α} (h : Runs (lift x >>= f) s r s') (stop : ∀ e, x = .error e → P (.error e) s)
    (go : ∀ a, x = .ok a → Runs (f a) s r s' → P r s') : P r s' := by
  cases x with
  | error e =>
    obtain ⟨ws, rfl, rfl⟩ := h
    exact stop e rfl
  | ok a => exact go a rfl h

@[elab_as_elim]
theorem after_write {g : σ → σ} {f : Unit → Faulty σ β} (h : Runs (write g e >>= f) s r s') (lost : P (.error e) s)
    (unreported : P (.error e) (g s)) (go : Runs (f ()) (g s) r s' → P r s') : P r s' := by
  obtain ⟨rfl, rfl | rfl⟩ | hrest := runs_write_bind h
  · exact lost
  · exact unreported
  · exact go hrest

end After

/-! ## Runs in which no write fails -/

/-- With every write done, the program does not end with `stop`. -/
def Quiet (stop : String) (c : Faulty σ α) : Prop := ∀ s, (c s []).1 ≠ .error stop ∧ (c s []).2.2 = []

variable {stop : String}

theorem quiet_pure (a : α) : Quiet stop (pure a : Faulty σ α) := fun _ => ⟨by simp [pure], rfl⟩

theorem quiet_get : Quiet stop (get : Faulty σ σ) := fun _ => ⟨by simp [get], rfl⟩

theorem quiet_fail (h : e ≠ stop) :
    Quiet stop (fail e : Faulty σ α) := fun _ => ⟨by simpa [fail] using h, rfl⟩

theorem quiet_lift {x : Except String α} (h : x ≠ .error stop) : Quiet stop (lift x : Faulty σ α) := fun _ => ⟨h, rfl⟩

theorem quiet_write (f : σ → σ) (e : String) : Quiet stop (write f e) := fun _ => ⟨by simp [write], rfl⟩

theorem quiet_refuse {c : Prop} [Decidable c] (h : e ≠ stop) :
    Quiet stop (refuse c e : Faulty σ Unit) := by
  unfold refuse
  split
  · exact quiet_fail h
  · exact quiet_pure ()

theorem Quiet.bind (hc : Quiet stop c) (hf : ∀ a, Quiet stop (f a)) : Quiet stop (c >>= f) := by
  intro s
  obtain ⟨herr, hws⟩ := hc s
  simp only [Bind.bind]
  rcases hrun : c s [] with ⟨out, t, ws⟩
  rw [hrun] at herr hws
  simp only at hws
  subst hws
  cases out with
  | ok a => exact hf a t
  | error e => exact ⟨fun he => herr (by simpa using he), rfl⟩

theorem Quiet.rescue {passed : List String} {handler : String → Faulty σ α} (hc : Quiet stop c)
    (hh : ∀ e, Quiet stop (handler e)) : Quiet stop (rescue passed c handler) := by
  intro s
  obtain ⟨herr, hws⟩ := hc s
  simp only [Faulty.rescue]
  rcases hrun : c s [] with ⟨out, t, ws⟩
  rw [hrun] at herr hws
  simp only at hws
  subst hws
  cases out with
  | ok a => exact ⟨by simp, rfl⟩
  | error e =>
    simp only
    by_cases he : e ∈ passed
    · rw [if_pos he]
      exact ⟨herr, rfl⟩
    · rw [if_neg he]
      exact hh e t

end Faulty
end Lib
