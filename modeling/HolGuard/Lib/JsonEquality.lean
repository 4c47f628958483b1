import HolGuard.Lib.JsonTree
/-!
# Equality of JSON values

Two JSON values are compared member by member, in the order their objects list them.
-/
namespace Lib
namespace JsonTree

variable {S N : Type} [DecidableEq S] [DecidableEq N]

mutual

def decEq (a b : JsonTree S N) : Decidable (a = b) :=
  if h : a.ctorIdx = b.ctorIdx then
    match a, b, h with
    | .null, .null, _ => .isTrue rfl
    | .bool a, .bool b, _ => decidable_of_iff (a = b) (by rw [bool.injEq])
    | .num a, .num b, _ => decidable_of_iff (a = b) (by rw [num.injEq])
    | .str a, .str b, _ => decidable_of_iff (a = b) (by rw [str.injEq])
    | .arr a, .arr b, _ => @decidable_of_iff _ (a = b) (by rw [arr.injEq]) (decEqItems a b)
    | .obj a, .obj b, _ => @decidable_of_iff _ (a = b) (by rw [obj.injEq]) (decEqMembers a b)
  else .isFalse (fun e => h (congrArg _ e))
termination_by structural a

def decEqItems : (a b : List (JsonTree S N)) → Decidable (a = b)
  | [], [] => .isTrue rfl
  | [], _ :: _ => .isFalse nofun
  | _ :: _, [] => .isFalse nofun
  | x :: xs, y :: ys =>
    @decidable_of_iff _ (x = y ∧ xs = ys) (by rw [List.cons.injEq])
      (@instDecidableAnd _ _ (decEq x y) (decEqItems xs ys))

def decEqMembers : (a b : List (S × JsonTree S N)) → Decidable (a = b)
  | [], [] => .isTrue rfl
  | [], _ :: _ => .isFalse nofun
  | _ :: _, [] => .isFalse nofun
  | (k, x) :: xs, (l, y) :: ys =>
    @decidable_of_iff _ (k = l ∧ x = y ∧ xs = ys) (by rw [List.cons.injEq, Prod.mk.injEq, and_assoc])
      (@instDecidableAnd _ _ _ (@instDecidableAnd _ _ (decEq x y) (decEqMembers xs ys)))

end

instance : DecidableEq (JsonTree S N) := decEq

end JsonTree
end Lib
