import Mathlib
/-!
# Numbered streams

A stream of entries with a number each, and a mark no number lies above.  An entry belongs to a lane, where it has a
position of its own, and carries a tag; it is open until it is done.  Entries are appended above the mark, become
done, are dropped once done, and may be given new numbers above the mark.

`Sound` is the invariant of such a stream, `Step.sound` that every step keeps it, and `Advances` what a whole run can
do to the numbers: an entry of the end state has its number from the start state or from above the mark.
-/
namespace Lib
namespace NumberedStream

structure Entry (ν κ τ : Type) where
  number : Int
  name : ν
  lane : κ
  position : Int
  tag : τ
  done : Bool

structure Stream (ν κ τ : Type) where
  entries : List (Entry ν κ τ)
  mark : Int
  last : κ → Int

variable {ν κ τ : Type}

/-- The same thing under possibly another number: what never changes of an entry. -/
def Entry.SameEvent (e d : Entry ν κ τ) : Prop :=
  e.name = d.name ∧ e.lane = d.lane ∧ e.position = d.position ∧ e.tag = d.tag

theorem Entry.SameEvent.refl (e : Entry ν κ τ) : e.SameEvent e := ⟨rfl, rfl, rfl, rfl⟩

variable {e d : Entry ν κ τ}

theorem Entry.SameEvent.trans {c : Entry ν κ τ} (h : e.SameEvent d) (h' : d.SameEvent c) :
    e.SameEvent c :=
  ⟨h.1.trans h'.1, h.2.1.trans h'.2.1, h.2.2.1.trans h'.2.2.1, h.2.2.2.trans h'.2.2.2⟩

/-- An entry with the new number its old one is given. -/
def Entry.moveTo (moved : Finset Int) (f : Int → Int) (e : Entry ν κ τ) : Entry ν κ τ :=
  if e.number ∈ moved then { e with number := f e.number } else e

def Entry.finish (named : Entry ν κ τ → Bool) (e : Entry ν κ τ) : Entry ν κ τ :=
  if named e then { e with done := true } else e

section Steps

variable [DecidableEq κ]

/-- The steps that neither finish nor lose anything.  New numbers come from above the mark, new positions from above the
lane's last one, new names from outside the stream; a renumbering keeps the order of what it moves and moves, with an
entry, every open entry of the same lane and tag behind it. -/
inductive Growth : Stream ν κ τ → Stream ν κ τ → Prop
  | append (s : Stream ν κ τ) (e : Entry ν κ τ) (isOpen : e.done = false) (number : s.mark < e.number)
      (position : s.last e.lane < e.position) (fresh : ∀ d ∈ s.entries, d.name ≠ e.name) :
      Growth s ⟨s.entries ++ [e], e.number, Function.update s.last e.lane e.position⟩
  | renumber (s : Stream ν κ τ) (moved : Finset Int) (f : Int → Int) (mark : Int) (le : s.mark ≤ mark)
      (order : ∀ n ∈ moved, ∀ m ∈ moved, n < m → f n < f m) (above : ∀ n ∈ moved, s.mark < f n ∧ f n ≤ mark)
      (behind : ∀ e ∈ s.entries, e.number ∈ moved → ∀ d ∈ s.entries, d.number ∉ moved → d.done = false →
        d.lane = e.lane → d.tag = e.tag → d.position ≤ e.position) :
      Growth s { s with entries := s.entries.map (Entry.moveTo moved f), mark := mark }

/-- **The steps of a stream**: it grows, entries become done, and done entries are dropped. -/
inductive Step : Stream ν κ τ → Stream ν κ τ → Prop
  | grow {s t : Stream ν κ τ} (h : Growth s t) : Step s t
  | finish (s : Stream ν κ τ) (named : Entry ν κ τ → Bool) :
      Step s { s with entries := s.entries.map (Entry.finish named) }
  | drop (s : Stream ν κ τ) (gone : Entry ν κ τ → Bool) (done : ∀ e ∈ s.entries, gone e = true → e.done = true) :
      Step s { s with entries := s.entries.filter (fun e => !gone e) }

end Steps

/-- Open entries of one lane and tag lie alike by number and by position. -/
def Alike (e d : Entry ν κ τ) : Prop :=
  e.done = false → d.done = false → e.lane = d.lane → e.tag = d.tag → (e.number < d.number ↔ e.position < d.position)

/-- **The invariant of a stream.** -/
structure Sound (s : Stream ν κ τ) : Prop where
  numbers : s.entries.Pairwise (fun e d => e.number ≠ d.number)
  names : s.entries.Pairwise (fun e d => e.name ≠ d.name)
  positions : s.entries.Pairwise (fun e d => e.lane = d.lane → e.position ≠ d.position)
  mark : ∀ e ∈ s.entries, e.number ≤ s.mark
  last : ∀ e ∈ s.entries, e.position ≤ s.last e.lane
  alike : ∀ e ∈ s.entries, ∀ d ∈ s.entries, Alike e d

/-- What a run can do to the numbers of a stream. -/
structure Advances (s t : Stream ν κ τ) : Prop where
  mark : s.mark ≤ t.mark
  number : ∀ d ∈ t.entries, (∃ e ∈ s.entries, e.number = d.number ∧ e.SameEvent d) ∨ s.mark < d.number

theorem Advances.refl (s : Stream ν κ τ) : Advances s s :=
  ⟨le_refl _, fun d hd => .inl ⟨d, hd, rfl, .refl d⟩⟩

variable {s t : Stream ν κ τ}

theorem Advances.trans {u : Stream ν κ τ} (h : Advances s t) (h' : Advances t u) :
    Advances s u where
  mark := h.mark.trans h'.mark
  number d hd := by
    obtain ⟨e, he, hn, hsame⟩ | habove := h'.number d hd
    · obtain ⟨c, hc, hcn, hcsame⟩ | habove := h.number e he
      · exact .inl ⟨c, hc, hcn.trans hn, hcsame.trans hsame⟩
      · exact .inr (hn ▸ habove)
    · exact .inr (lt_of_le_of_lt h.mark habove)

@[simp] theorem Entry.finish_number (named : Entry ν κ τ → Bool) (e : Entry ν κ τ) :
    (e.finish named).number = e.number := by
  unfold Entry.finish
  split <;> rfl

theorem Entry.sameEvent_finish (named : Entry ν κ τ → Bool) (e : Entry ν κ τ) : e.SameEvent (e.finish named) := by
  unfold Entry.finish
  split <;> exact .refl e

theorem Entry.done_finish {named : Entry ν κ τ → Bool} (h : (e.finish named).done = false) :
    e.done = false := by
  unfold Entry.finish at h
  split at h
  · cases h
  · exact h

theorem Entry.sameEvent_moveTo (moved : Finset Int) (f : Int → Int) (e : Entry ν κ τ) :
    e.SameEvent (e.moveTo moved f) := by
  unfold Entry.moveTo
  split <;> exact .refl e

@[simp] theorem Entry.moveTo_done (moved : Finset Int) (f : Int → Int) (e : Entry ν κ τ) :
    (e.moveTo moved f).done = e.done := by
  unfold Entry.moveTo
  split <;> rfl

theorem Entry.moveTo_number (moved : Finset Int) (f : Int → Int) (e : Entry ν κ τ) :
    (e.moveTo moved f).number = if e.number ∈ moved then f e.number else e.number := by
  unfold Entry.moveTo
  split <;> rfl

/-- Two entries of a sound stream with one number are one entry. -/
theorem Sound.eq_of_number (h : Sound s) (he : e ∈ s.entries) (hd : d ∈ s.entries) (hn : e.number = d.number) : e = d :=
  List.inj_on_of_nodup_map (List.pairwise_map.2 h.numbers) he hd hn

theorem sound_append [DecidableEq κ] (h : Sound s) (hn : s.mark < e.number) (hp : s.last e.lane < e.position)
    (hf : ∀ d ∈ s.entries, d.name ≠ e.name) :
    Sound ⟨s.entries ++ [e], e.number, Function.update s.last e.lane e.position⟩ := by
  have hnumber : ∀ d ∈ s.entries, d.number < e.number := fun d hd => lt_of_le_of_lt (h.mark d hd) hn
  have hposition : ∀ d ∈ s.entries, d.lane = e.lane → d.position < e.position := fun d hd hl =>
    lt_of_le_of_lt (hl ▸ h.last d hd) hp
  refine ⟨?_, ?_, ?_, ?_, ?_, ?_⟩
  · refine List.pairwise_append.2 ⟨h.numbers, List.pairwise_singleton _ _, fun d hd c hc => ?_⟩
    rw [List.mem_singleton.1 hc]
    exact (hnumber d hd).ne
  · refine List.pairwise_append.2 ⟨h.names, List.pairwise_singleton _ _, fun d hd c hc => ?_⟩
    rw [List.mem_singleton.1 hc]
    exact hf d hd
  · refine List.pairwise_append.2 ⟨h.positions, List.pairwise_singleton _ _, fun d hd c hc hl => ?_⟩
    rw [List.mem_singleton.1 hc] at hl ⊢
    exact (hposition d hd hl).ne
  · intro d hd
    rcases List.mem_append.1 hd with hd | hd
    · exact (hnumber d hd).le
    · rw [List.mem_singleton.1 hd]
  · intro d hd
    rcases List.mem_append.1 hd with hd | hd
    · by_cases hl : d.lane = e.lane
      · simp only [hl, Function.update_self]
        exact (hposition d hd hl).le
      · simp only [Function.update_of_ne hl]
        exact h.last d hd
    · rw [List.mem_singleton.1 hd]
      simp
  · intro d hd c hc hdo hco hl ht
    rcases List.mem_append.1 hd with hd | hd <;> rcases List.mem_append.1 hc with hc | hc
    · exact h.alike d hd c hc hdo hco hl ht
    · rw [List.mem_singleton.1 hc] at hl ⊢
      exact iff_of_true (hnumber d hd) (hposition d hd hl)
    · rw [List.mem_singleton.1 hd] at hl ⊢
      exact iff_of_false (hnumber c hc).le.not_gt (hposition c hc hl.symm).le.not_gt
    · rw [List.mem_singleton.1 hd, List.mem_singleton.1 hc]
      simp

/-- What changes only the numbers and what is done keeps a stream sound if the numbers stay in order. -/
theorem sound_map (h : Sound s) {g : Entry ν κ τ → Entry ν κ τ} {mark : Int} (same : ∀ e, Entry.SameEvent e (g e))
    (numbers : s.entries.Pairwise (fun e d => (g e).number ≠ (g d).number))
    (bound : ∀ e ∈ s.entries, (g e).number ≤ mark)
    (order : ∀ e ∈ s.entries, ∀ d ∈ s.entries, (g e).done = false → (g d).done = false → e.lane = d.lane →
      e.tag = d.tag → ((g e).number < (g d).number ↔ e.position < d.position)) :
    Sound { s with entries := s.entries.map g, mark := mark } where
  numbers := List.pairwise_map.2 numbers
  names := List.pairwise_map.2 (h.names.imp fun {e d} hne => by rwa [← (same e).1, ← (same d).1])
  positions := List.pairwise_map.2 (h.positions.imp fun {e d} hne hl => by
    obtain ⟨-, hel, hep, -⟩ := same e
    obtain ⟨-, hdl, hdp, -⟩ := same d
    rw [← hep, ← hdp]
    exact hne (by rw [hel, hdl, hl]))
  mark e he := by
    obtain ⟨d, hd, rfl⟩ := List.mem_map.1 he
    exact bound d hd
  last e he := by
    obtain ⟨d, hd, rfl⟩ := List.mem_map.1 he
    obtain ⟨-, hl, hp, -⟩ := same d
    rw [← hl, ← hp]
    exact h.last d hd
  alike e he d hd heo hdo hl ht := by
    obtain ⟨e, he', rfl⟩ := List.mem_map.1 he
    obtain ⟨d, hd', rfl⟩ := List.mem_map.1 hd
    obtain ⟨-, hel, hep, het⟩ := same e
    obtain ⟨-, hdl, hdp, hdt⟩ := same d
    rw [← hep, ← hdp]
    exact order e he' d hd' heo hdo (by rw [hel, hdl, hl]) (by rw [het, hdt, ht])

theorem sound_finish (h : Sound s) (named : Entry ν κ τ → Bool) :
    Sound { s with entries := s.entries.map (Entry.finish named) } := by
  refine sound_map h (Entry.sameEvent_finish named) (h.numbers.imp (by simp)) (fun e he => ?_) ?_
  · simpa using h.mark e he
  · intro e he d hd heo hdo hl ht
    simp only [Entry.finish_number]
    exact h.alike e he d hd (Entry.done_finish heo) (Entry.done_finish hdo) hl ht

theorem sound_drop (h : Sound s) (kept : Entry ν κ τ → Bool) :
    Sound { s with entries := s.entries.filter kept } where
  numbers := h.numbers.filter _
  names := h.names.filter _
  positions := h.positions.filter _
  mark e he := h.mark e (List.mem_filter.1 he).1
  last e he := h.last e (List.mem_filter.1 he).1
  alike e he d hd := h.alike e (List.mem_filter.1 he).1 d (List.mem_filter.1 hd).1

section Renumber

variable {s : Stream ν κ τ} {moved : Finset Int} {f : Int → Int} {mark : Int}

/-- Where a renumbering puts two entries: a moved one above every other, two moved ones as before. -/
theorem moveTo_lt_iff (h : Sound s) (order : ∀ n ∈ moved, ∀ m ∈ moved, n < m → f n < f m)
    (above : ∀ n ∈ moved, s.mark < f n ∧ f n ≤ mark) (he : e ∈ s.entries) (hd : d ∈ s.entries) :
    (e.moveTo moved f).number < (d.moveTo moved f).number ↔
      if e.number ∈ moved ↔ d.number ∈ moved then e.number < d.number else d.number ∈ moved := by
  rw [Entry.moveTo_number, Entry.moveTo_number]
  have hem := h.mark e he
  have hdm := h.mark d hd
  by_cases hme : e.number ∈ moved <;> by_cases hmd : d.number ∈ moved
  · rw [if_pos hme, if_pos hmd, if_pos (iff_of_true hme hmd)]
    rcases lt_trichotomy e.number d.number with hlt | heq | hgt
    · exact iff_of_true (order _ hme _ hmd hlt) hlt
    · rw [heq]
      simp
    · exact iff_of_false (order _ hmd _ hme hgt).le.not_gt hgt.le.not_gt
  · have := above _ hme
    simp only [hme, hmd, if_true, if_false, iff_false, not_true_eq_false]
    omega
  · have := above _ hmd
    simp only [hme, hmd, if_true, if_false, iff_true]
    omega
  · simp [hme, hmd]

theorem sound_renumber (h : Sound s) (le : s.mark ≤ mark) (order : ∀ n ∈ moved, ∀ m ∈ moved, n < m → f n < f m)
    (above : ∀ n ∈ moved, s.mark < f n ∧ f n ≤ mark)
    (behind : ∀ e ∈ s.entries, e.number ∈ moved → ∀ d ∈ s.entries, d.number ∉ moved → d.done = false →
      d.lane = e.lane → d.tag = e.tag → d.position ≤ e.position) :
    Sound { s with entries := s.entries.map (Entry.moveTo moved f), mark := mark } := by
  refine sound_map h (Entry.sameEvent_moveTo moved f) (h.numbers.imp_of_mem fun {e d} he hd hne heq => ?_)
    (fun e he => ?_) ?_
  · have hed := (moveTo_lt_iff h order above he hd).not.1 heq.not_lt
    have hde := (moveTo_lt_iff h order above hd he).not.1 heq.not_gt
    by_cases hme : e.number ∈ moved <;> by_cases hmd : d.number ∈ moved <;> simp [hme, hmd] at hed hde <;> omega
  · rw [Entry.moveTo_number]
    split
    · exact (above _ ‹_›).2
    · exact (h.mark e he).trans le
  · intro e he d hd heo hdo hl ht
    rw [Entry.moveTo_done] at heo hdo
    rw [moveTo_lt_iff h order above he hd]
    have halike := h.alike e he d hd heo hdo hl ht
    have hne : e.number ≠ d.number → e.position ≠ d.position := by
      intro hn hp
      have hlt := halike.not.2 (by omega)
      have hgt := (h.alike d hd e he hdo heo hl.symm ht.symm).not.2 (by omega)
      omega
    by_cases hme : e.number ∈ moved <;> by_cases hmd : d.number ∈ moved
    · simpa [hme, hmd] using halike
    · have := behind e he hme d hd hmd hdo hl.symm ht.symm
      simp only [hme, hmd, iff_false, not_true_eq_false, if_false, false_iff]
      omega
    · have := behind d hd hmd e he hme heo hl ht
      have := hne (fun heq => hme (heq ▸ hmd))
      simp only [hme, hmd, iff_true, if_false, true_iff]
      omega
    · simpa [hme, hmd] using halike

end Renumber

variable [DecidableEq κ]

theorem Growth.sound (hg : Growth s t) (h : Sound s) : Sound t := by
  cases hg with
  | append e _ number position fresh => exact sound_append h number position fresh
  | renumber moved f mark le order above behind => exact sound_renumber h le order above behind

/-- **Every step keeps a stream sound.** -/
theorem Step.sound (hs : Step s t) (h : Sound s) : Sound t := by
  cases hs with
  | grow hg => exact hg.sound h
  | finish named => exact sound_finish h named
  | drop gone => exact sound_drop h _

theorem Growth.advances (hg : Growth s t) : Advances s t := by
  cases hg with
  | append e _ number position _ =>
    refine ⟨number.le, fun d hd => ?_⟩
    rcases List.mem_append.1 hd with hd | hd
    · exact .inl ⟨d, hd, rfl, .refl d⟩
    · exact .inr (List.mem_singleton.1 hd ▸ number)
  | renumber moved f mark le order above behind =>
    refine ⟨le, fun d hd => ?_⟩
    obtain ⟨e, he, rfl⟩ := List.mem_map.1 hd
    rw [Entry.moveTo_number]
    split
    · exact .inr (above _ ‹_›).1
    · exact .inl ⟨e, he, rfl, e.sameEvent_moveTo moved f⟩

/-- **A step gives out only numbers above the mark.** -/
theorem Step.advances (hs : Step s t) : Advances s t := by
  cases hs with
  | grow hg => exact hg.advances
  | finish named =>
    refine ⟨le_refl _, fun d hd => ?_⟩
    obtain ⟨e, he, rfl⟩ := List.mem_map.1 hd
    exact .inl ⟨e, he, (e.finish_number named).symm, e.sameEvent_finish named⟩
  | drop gone => exact ⟨le_refl _, fun d hd => .inl ⟨d, (List.mem_filter.1 hd).1, rfl, .refl d⟩⟩

/-- Growth loses no event. -/
theorem Growth.retains (hg : Growth s t) (he : e ∈ s.entries) : ∃ d ∈ t.entries, e.SameEvent d := by
  cases hg with
  | append c => exact ⟨e, List.mem_append_left _ he, .refl e⟩
  | renumber moved f => exact ⟨_, List.mem_map_of_mem he, e.sameEvent_moveTo moved f⟩

/-- Growth finishes no event. -/
theorem Growth.done_of_done (hg : Growth s t) (hd : d ∈ t.entries) (hdone : d.done = true) :
    ∃ e ∈ s.entries, e.done = true ∧ e.SameEvent d := by
  cases hg with
  | append c isOpen =>
    rcases List.mem_append.1 hd with hd | hd
    · exact ⟨d, hd, hdone, .refl d⟩
    · rw [List.mem_singleton.1 hd, isOpen] at hdone
      cases hdone
  | renumber moved f =>
    obtain ⟨e, he, rfl⟩ := List.mem_map.1 hd
    exact ⟨e, he, by simpa using hdone, e.sameEvent_moveTo moved f⟩

abbrev Runs (s t : Stream ν κ τ) : Prop := Relation.ReflTransGen Step s t

theorem Runs.sound (hr : Runs s t) (h : Sound s) : Sound t := by
  induction hr with
  | refl => exact h
  | tail _ hstep ih => exact hstep.sound ih

theorem Runs.advances (hr : Runs s t) : Advances s t := by
  induction hr with
  | refl => exact .refl s
  | tail _ hstep ih => exact ih.trans hstep.advances

/-- **A number belongs to one event for good**: an entry of a later state with the number of an earlier one is the
same event. -/
theorem Runs.sameEvent (hr : Runs s t) (h : Sound s) (he : e ∈ s.entries) (hd : d ∈ t.entries)
    (hn : e.number = d.number) : e.SameEvent d := by
  obtain ⟨c, hc, hcn, hsame⟩ | habove := hr.advances.number d hd
  · rw [h.eq_of_number he hc (hn.trans hcn.symm)]
    exact hsame
  · have := h.mark e he
    omega

end NumberedStream
end Lib
