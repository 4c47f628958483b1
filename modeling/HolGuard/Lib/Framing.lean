import HolGuard.Lib.Bytes
/-!
# Self-delimiting byte forms

A form is self-delimiting when what follows it cannot be taken for a part of it.  Sequences of such forms decode in one
way, so writing one after the other loses nothing.
-/
namespace Lib

variable {α β γ : Type}

/-- Whatever follows, the form of one of the values in `P` tells the value and where it ends. -/
def SelfDelimiting (P : α → Prop) (form : α → List β) : Prop :=
  ∀ a b, P a → P b → ∀ r s, form a ++ r = form b ++ s → a = b ∧ r = s

namespace SelfDelimiting

variable {P : α → Prop} {form : α → List β}

theorem seq {Q : γ → Prop} {form' : γ → List β} (h : SelfDelimiting P form) (h' : SelfDelimiting Q form') :
    SelfDelimiting (fun p : α × γ => P p.1 ∧ Q p.2) (fun p => form p.1 ++ form' p.2) := by
  rintro ⟨a, c⟩ ⟨b, d⟩ ⟨ha, hc⟩ ⟨hb, hd⟩ r s heq
  rw [List.append_assoc, List.append_assoc] at heq
  obtain ⟨rfl, hrest⟩ := h a b ha hb _ _ heq
  obtain ⟨rfl, htail⟩ := h' c d hc hd _ _ hrest
  exact ⟨rfl, htail⟩

/-- A sequence of forms that are never empty decodes in one way. -/
theorem flatMap_inj (h : SelfDelimiting P form) (hne : ∀ a, form a ≠ []) : ∀ {as bs : List α}, (∀ a ∈ as, P a) →
    (∀ b ∈ bs, P b) → as.flatMap form = bs.flatMap form → as = bs
  | [], [], _, _, _ => rfl
  | [], b :: bs, _, _, heq => by
    rw [List.flatMap_nil, List.flatMap_cons] at heq
    exact absurd (List.append_eq_nil_iff.1 heq.symm).1 (hne b)
  | a :: as, [], _, _, heq => by
    rw [List.flatMap_nil, List.flatMap_cons] at heq
    exact absurd (List.append_eq_nil_iff.1 heq).1 (hne a)
  | a :: as, b :: bs, ha, hb, heq => by
    rw [List.flatMap_cons, List.flatMap_cons] at heq
    obtain ⟨rfl, hrest⟩ := h a b (ha a List.mem_cons_self) (hb b List.mem_cons_self) _ _ heq
    rw [h.flatMap_inj hne (fun x hx => ha x (List.mem_cons_of_mem _ hx)) (fun x hx => hb x (List.mem_cons_of_mem _ hx))
      hrest]

/-- A tag tells an absent value from a present one. -/
theorem option {absent present : β} (hne : absent ≠ present) (h : SelfDelimiting P form) :
    SelfDelimiting (fun o : Option α => ∀ a ∈ o, P a) (fun o => o.elim [absent] (fun a => present :: form a)) := by
  intro a b ha hb r s heq
  cases a with
  | none =>
    cases b with
    | none => exact ⟨rfl, List.append_cancel_left heq⟩
    | some b => exact absurd (List.cons.inj heq).1 hne
  | some a =>
    cases b with
    | none => exact absurd (List.cons.inj heq).1.symm hne
    | some b =>
      obtain ⟨rfl, hrest⟩ := h a b (ha a rfl) (hb b rfl) r s (List.cons.inj heq).2
      exact ⟨rfl, hrest⟩

end SelfDelimiting

/-! ## Lengths of 64 bits -/

theorem length_beBytes (n : Nat) : (beBytes n).length = 8 := by simp [beBytes]

theorem beBytes_inj {m n : Nat} (hm : m < 2 ^ 64) (hn : n < 2 ^ 64) (h : beBytes m = beBytes n) : m = n := by
  have hbyte : ∀ i < 8, m / 256 ^ (7 - i) % 256 = n / 256 ^ (7 - i) % 256 := by
    intro i hi
    have hentry : (beBytes m)[i]? = (beBytes n)[i]? := by rw [h]
    simp only [beBytes, List.getElem?_map, List.getElem?_range hi, Option.map_some, Option.some.injEq] at hentry
    have hnat := congrArg UInt8.toNat hentry
    rwa [UInt8.toNat_ofNat', UInt8.toNat_ofNat'] at hnat
  have h0 := hbyte 0 (by decide)
  have h1 := hbyte 1 (by decide)
  have h2 := hbyte 2 (by decide)
  have h3 := hbyte 3 (by decide)
  have h4 := hbyte 4 (by decide)
  have h5 := hbyte 5 (by decide)
  have h6 := hbyte 6 (by decide)
  have h7 := hbyte 7 (by decide)
  norm_num at h0 h1 h2 h3 h4 h5 h6 h7 hm hn
  omega

def lengthFramed (bytes : Bytes) : Bytes := beBytes bytes.length ++ bytes

theorem selfDelimiting_lengthFramed : SelfDelimiting (fun b : Bytes => b.length < 2 ^ 64) lengthFramed := by
  intro a b ha hb r s h
  unfold lengthFramed at h
  rw [List.append_assoc, List.append_assoc] at h
  obtain ⟨hlength, hrest⟩ := List.append_inj h (by rw [length_beBytes, length_beBytes])
  exact List.append_inj hrest (beBytes_inj ha hb hlength)

end Lib
