import Mathlib
/-!
# Listing the elements of a set

A program that iterates over a set sees its elements in some order: an ordered set in the order of its keys, a hash set
in an order that no one states.  An enumeration is such an order for every finite set of a type.
-/
namespace Lib

structure Enumeration (α : Type) where
  list : Finset α → List α
  nodup_list : ∀ s, (list s).Nodup
  mem_list : ∀ {s : Finset α} {a : α}, a ∈ list s ↔ a ∈ s

namespace Enumeration

variable {α : Type}

/-- The enumeration of an ordered set, by a key that tells its elements apart. -/
def sorted {κ : Type} [LinearOrder κ] (key : α → κ) (hkey : Function.Injective key) : Enumeration α :=
  letI : LinearOrder α := LinearOrder.lift' key hkey
  { list := fun s => s.sort (fun a b => a ≤ b)
    nodup_list := fun s => s.sort_nodup _
    mem_list := fun {_ _} => Finset.mem_sort _ }

/-- The same sets, listed from the other end. -/
def reversed (e : Enumeration α) : Enumeration α where
  list s := (e.list s).reverse
  nodup_list s := List.nodup_reverse.2 (e.nodup_list s)
  mem_list := List.mem_reverse.trans e.mem_list

end Enumeration
end Lib
