import Mathlib
/-!
# One intent ahead of a copy and a mark

A store that announces the value it is about to publish, installs it as its copy, raises its mark to the rank of the
value, and then withdraws the announcement.  A run may stop after any move and another may take over from there, as long
as it only repeats or completes what the announced value allows.  Then the mark never falls, and two values installed
under one rank are the same value.
-/
namespace Lib

structure IntentLog (α : Type) where
  intent : Option α
  installed : Option α
  mark : Nat

namespace IntentLog

inductive Move (α : Type) where
  | announce (a : α)
  | install (a : α)
  | commit (mark : Nat)
  | withdraw

variable {α : Type}

def empty : IntentLog α := ⟨none, none, 0⟩

def next (l : IntentLog α) : Move α → IntentLog α
  | .announce a => { l with intent := some a }
  | .install a => { l with installed := some a }
  | .commit n => { l with mark := n }
  | .withdraw => { l with intent := none }

def after (l : IntentLog α) (moves : List (Move α)) : IntentLog α := moves.foldl next l

def installs (moves : List (Move α)) : List α :=
  moves.filterMap (fun m => match m with
    | .install a => some a
    | _ => none)

@[simp] theorem after_nil (l : IntentLog α) : l.after [] = l := rfl

@[simp] theorem after_cons (l : IntentLog α) (m : Move α) (ms : List (Move α)) :
    l.after (m :: ms) = (l.next m).after ms :=
  rfl

theorem after_append (l : IntentLog α) (ms ns : List (Move α)) : l.after (ms ++ ns) = (l.after ms).after ns :=
  List.foldl_append

theorem installs_append (ms ns : List (Move α)) : installs (ms ++ ns) = installs ms ++ installs ns :=
  List.filterMap_append

section

variable (rank : α → Nat)

/-- The moves a store may make: a new value only above the mark and with no other announced; everything else only for
the announced value, which is withdrawn once the mark has its rank. -/
inductive Enabled (l : IntentLog α) : Move α → Prop
  | announce (a : α) : l.intent = none → l.mark < rank a → Enabled l (.announce a)
  | install (a : α) : l.intent = some a → Enabled l (.install a)
  | commit (a : α) : l.intent = some a → Enabled l (.commit (rank a))
  | withdraw (a : α) : l.intent = some a → l.mark = rank a → Enabled l .withdraw

def Legal : IntentLog α → List (Move α) → Prop
  | _, [] => True
  | l, m :: ms => Enabled rank l m ∧ Legal (l.next m) ms

/-- What a store and the values installed in it so far satisfy. -/
structure Sound (seen : List α) (l : IntentLog α) : Prop where
  settled : l.intent = none → ∀ a ∈ seen, rank a ≤ l.mark
  announced : ∀ p, l.intent = some p → l.mark ≤ rank p ∧ ∀ a ∈ seen, rank a ≤ rank p ∧ (rank a = rank p → a = p)
  unique : ∀ a ∈ seen, ∀ b ∈ seen, rank a = rank b → a = b
  installed_mem : ∀ a, l.installed = some a → a ∈ seen

end

variable {rank : α → Nat}

theorem legal_append : ∀ (l : IntentLog α) (ms ns : List (Move α)),
    Legal rank l (ms ++ ns) ↔ Legal rank l ms ∧ Legal rank (l.after ms) ns
  | _, [], _ => by simp [Legal]
  | l, m :: ms, ns => by
    rw [List.cons_append, Legal, Legal, after_cons, legal_append (l.next m) ms ns, and_assoc]

theorem sound_empty : Sound rank [] (empty : IntentLog α) where
  settled _ _ h := nomatch h
  announced _ h := nomatch h
  unique _ h := nomatch h
  installed_mem _ h := nomatch h

/-- **One move keeps a store sound**, the value it installs included. -/
theorem sound_next {seen : List α} {l : IntentLog α} {m : Move α} (hm : Enabled rank l m) (h : Sound rank seen l) :
    Sound rank (seen ++ installs [m]) (l.next m) := by
  cases hm with
  | announce a hnone hlt =>
    have hbound : ∀ b ∈ seen, rank b < rank a := fun b hb => Nat.lt_of_le_of_lt (h.settled hnone b hb) hlt
    simp only [installs, List.filterMap_cons, List.filterMap_nil, List.append_nil, next]
    refine ⟨fun hc => (nomatch hc), fun p hp => ?_, h.unique, h.installed_mem⟩
    cases hp
    exact ⟨Nat.le_of_lt hlt, fun b hb => ⟨Nat.le_of_lt (hbound b hb), fun he => absurd he (Nat.ne_of_lt (hbound b hb))⟩⟩
  | install a hsome =>
    obtain ⟨hmark, hseen⟩ := h.announced a hsome
    simp only [installs, List.filterMap_cons, List.filterMap_nil, next]
    -- a value seen under the rank of the announced one is the announced one
    have hall : ∀ b ∈ seen ++ [a], rank b ≤ rank a ∧ (rank b = rank a → b = a) :=
      List.forall_mem_append.2 ⟨hseen, List.forall_mem_singleton.2 ⟨Nat.le_refl _, fun _ => rfl⟩⟩
    refine ⟨fun hc => ?_, fun p hp => ?_, fun b hb c hc hbc => ?_, fun b hb => ?_⟩
    · rw [hsome] at hc
      cases hc
    · rw [hsome] at hp
      cases hp
      exact ⟨hmark, hall⟩
    · rw [List.mem_append, List.mem_singleton] at hb hc
      rcases hb with hb | rfl <;> rcases hc with hc | rfl
      · exact h.unique b hb c hc hbc
      · exact (hseen b hb).2 hbc
      · exact ((hseen c hc).2 hbc.symm).symm
      · rfl
    · cases hb
      exact List.mem_concat_self
  | commit a hsome =>
    obtain ⟨-, hseen⟩ := h.announced a hsome
    simp only [installs, List.filterMap_cons, List.filterMap_nil, List.append_nil, next]
    refine ⟨fun _ b hb => (hseen b hb).1, fun p hp => ?_, h.unique, h.installed_mem⟩
    rw [hsome] at hp
    cases hp
    exact ⟨Nat.le_refl _, hseen⟩
  | withdraw a hsome hmark =>
    obtain ⟨-, hseen⟩ := h.announced a hsome
    simp only [installs, List.filterMap_cons, List.filterMap_nil, List.append_nil, next]
    exact ⟨fun _ b hb => hmark ▸ (hseen b hb).1, fun p hp => (nomatch hp), h.unique, h.installed_mem⟩

theorem mark_le_next {seen : List α} {l : IntentLog α} {m : Move α} (hm : Enabled rank l m) (h : Sound rank seen l) :
    l.mark ≤ (l.next m).mark := by
  cases hm with
  | announce a _ _ => exact Nat.le_refl _
  | install a _ => exact Nat.le_refl _
  | commit a hsome => exact (h.announced a hsome).1
  | withdraw a _ _ => exact Nat.le_refl _

/-- **A legal run keeps a store sound.** -/
theorem sound_after : ∀ {ms : List (Move α)} {seen : List α} {l : IntentLog α},
    Legal rank l ms → Sound rank seen l → Sound rank (seen ++ installs ms) (l.after ms)
  | [], _, _, _, h => by simpa [installs] using h
  | m :: ms, seen, l, hms, h => by
    have := sound_after hms.2 (sound_next hms.1 h)
    rwa [List.append_assoc, ← installs_append, List.singleton_append] at this

/-- **The mark never falls along a legal run.** -/
theorem mark_le_after : ∀ {ms : List (Move α)} {seen : List α} {l : IntentLog α},
    Legal rank l ms → Sound rank seen l → l.mark ≤ (l.after ms).mark
  | [], _, _, _, _ => Nat.le_refl _
  | _ :: _, _, _, hms, h => Nat.le_trans (mark_le_next hms.1 h) (mark_le_after hms.2 (sound_next hms.1 h))

end IntentLog
end Lib
