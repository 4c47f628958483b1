import HolGuard.Lib.Json
/-!
# Codecs between data and JSON values

A codec is an encoder with a decoder that inverts it; the law is a field, so every codec built from these is a round
trip.  A record's encoder lists its members in key order, and its decoder refuses unknown members (`onlyMembers`), asks
for every required one (`required`) and reads an absent optional one as absent (`optional`).
-/
namespace Lib

structure Codec (α : Type) where
  encode : α → Json
  decode : Json → Option α
  decode_encode : ∀ a, decode (encode a) = some a

namespace Codec

theorem encode_injective {α : Type} (c : Codec α) {a b : α} (h : c.encode a = c.encode b) : a = b := by
  have := congrArg c.decode h
  rw [c.decode_encode, c.decode_encode] at this
  exact Option.some.inj this

def string : Codec String where
  encode := .str
  decode | .str s => some s | _ => none
  decode_encode _ := rfl

def nat : Codec Nat where
  encode := .num
  decode | .num n => some n | _ => none
  decode_encode _ := rfl

def bool : Codec Bool where
  encode := .bool
  decode | .bool b => some b | _ => none
  decode_encode _ := rfl

def fin (k : Nat) : Codec (Fin k) where
  encode n := .num n.val
  decode | .num n => if h : n < k then some ⟨n, h⟩ else none | _ => none
  decode_encode n := by simp

variable {α : Type}

theorem mapM_decode_encode (c : Codec α) : ∀ l : List α, (l.map c.encode).mapM c.decode = some l
  | [] => rfl
  | a :: l => by simp [List.mapM_cons, c.decode_encode, mapM_decode_encode c l]

def list (c : Codec α) : Codec (List α) where
  encode l := .arr (l.map c.encode)
  decode | .arr items => items.mapM c.decode | _ => none
  decode_encode l := mapM_decode_encode c l

/-- An optional value, `null` when there is none. -/
def nullable (c : Codec α) (hc : ∀ a, c.encode a ≠ .null) : Codec (Option α) where
  encode
    | none => .null
    | some a => c.encode a
  decode
    | .null => some none
    | v => (c.decode v).map some
  decode_encode
    | none => rfl
    | some a => by
      simp only
      split
      · rename_i hn; exact absurd hn (hc a)
      · rw [c.decode_encode]; rfl

end Codec

/-- A map with strictly increasing keys, as a sorted map iterates. -/
structure SortedMap (α : Type) where
  pairs : List (String × α)
  sorted : (pairs.map Prod.fst).Pairwise (· < ·)
  deriving DecidableEq

namespace SortedMap

def empty {α : Type} : SortedMap α := ⟨[], List.Pairwise.nil⟩

theorem ext {α : Type} {m n : SortedMap α} (h : m.pairs = n.pairs) : m = n := by
  cases m; cases n; cases h; rfl

variable {α : Type} (c : Codec α)

theorem mapM_member : ∀ l : List (String × α),
    (l.map (fun q => (q.1, c.encode q.2))).mapM (fun q => (c.decode q.2).map (fun v => (q.1, v))) = some l
  | [] => rfl
  | (k, a) :: l => by simp [List.mapM_cons, c.decode_encode, mapM_member l]

def codec : Codec (SortedMap α) where
  encode m := .obj (m.pairs.map (fun q => (q.1, c.encode q.2)))
  decode
    | .obj ms => (ms.mapM (fun q => (c.decode q.2).map (fun v => (q.1, v)))).bind (fun l =>
        if h : (l.map Prod.fst).Pairwise (· < ·) then some ⟨l, h⟩ else none)
    | _ => none
  decode_encode m := by
    simp only
    rw [mapM_member, Option.bind_some, dif_pos m.sorted]

end SortedMap

/-! ## Records -/

namespace Json

variable {α : Type}

def onlyMembers (ms : List (String × Json)) (known : List String) : Bool := ms.all (fun m => known.contains m.1)

def required (c : Codec α) (ms : List (String × Json)) (key : String) : Option α := (ms.lookup key).bind c.decode

/-- An optional member: an absent one is nothing. -/
def optional (c : Codec (Option α)) (ms : List (String × Json)) (key : String) : Option (Option α) :=
  match ms.lookup key with
  | none => some none
  | some v => c.decode v

/-- A member with a default for an absent one. -/
def defaulted (c : Codec α) (default : α) (ms : List (String × Json)) (key : String) : Option α :=
  match ms.lookup key with
  | none => some default
  | some v => c.decode v

/-- `skip_serializing_if = "Option::is_none"` -/
def someMember (c : Codec (Option α)) (key : String) : Option α → List (String × Json)
  | none => []
  | some a => [(key, c.encode (some a))]

/-- `skip_serializing_if = "BTreeMap::is_empty"` -/
def mapMember (c : Codec α) (key : String) (m : SortedMap α) : List (String × Json) :=
  if m.pairs.isEmpty then [] else [(key, (SortedMap.codec c).encode m)]

/-! The members of a record that leaves some of them out, read back. -/

theorem lookup_member (k key : String) (v : Json) (ms : List (String × Json)) :
    List.lookup k ((key, v) :: ms) = if k = key then some v else ms.lookup k := by
  by_cases h : k = key
  · subst h; simp
  · have hb : (k == key) = false := by simpa using h
    rw [List.lookup_cons, hb, if_neg h]

theorem lookup_someMember (c : Codec (Option α)) (key k : String) (a : Option α) :
    (someMember c key a).lookup k = if k = key then a.map (fun x => c.encode (some x)) else none := by
  cases a with
  | none => simp [someMember]
  | some a => rw [someMember, lookup_member]; rfl

theorem lookup_mapMember (c : Codec α) (key k : String) (m : SortedMap α) :
    (mapMember c key m).lookup k =
      if k = key then (if m.pairs.isEmpty then none else some ((SortedMap.codec c).encode m)) else none := by
  unfold mapMember
  by_cases hm : m.pairs.isEmpty = true
  · simp [hm]
  · rw [if_neg hm, if_neg hm, lookup_member]; rfl

theorem onlyMembers_append (ms ns : List (String × Json)) (known : List String) :
    onlyMembers (ms ++ ns) known = (onlyMembers ms known && onlyMembers ns known) := by
  simp [onlyMembers]

theorem onlyMembers_someMember (c : Codec (Option α)) {key : String} (a : Option α) {known : List String}
    (h : known.contains key = true) : onlyMembers (someMember c key a) known = true := by
  cases a <;> simp_all [onlyMembers, someMember]

theorem onlyMembers_mapMember (c : Codec α) {key : String} (m : SortedMap α) {known : List String}
    (h : known.contains key = true) : onlyMembers (mapMember c key m) known = true := by
  unfold mapMember
  split <;> simp_all [onlyMembers]

theorem optional_of_lookup {c : Codec (Option α)} {ms : List (String × Json)} {key : String} {a : Option α}
    (h : ms.lookup key = a.map (fun x => c.encode (some x))) : optional c ms key = some a := by
  unfold optional
  rw [h]
  cases a with
  | none => rfl
  | some a => simp [c.decode_encode]

theorem defaulted_of_lookup {c : Codec α} {ms : List (String × Json)} {key : String} {m : SortedMap α}
    (h : ms.lookup key = if m.pairs.isEmpty then none else some ((SortedMap.codec c).encode m)) :
    defaulted (SortedMap.codec c) .empty ms key = some m := by
  unfold defaulted
  rw [h]
  split
  · rename_i hm
    split at hm
    · rename_i he
      rw [SortedMap.ext (m := m) (n := .empty) (List.isEmpty_iff.1 he)]
    · cases hm
  · rename_i v hm
    split at hm
    · cases hm
    · rw [← Option.some.inj hm, Codec.decode_encode]

end Json
end Lib
