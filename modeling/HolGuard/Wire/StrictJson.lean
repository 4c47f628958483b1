import HolGuard.Lib.Checks
import HolGuard.Lib.SerdeJson
/-!
# The resident's strict JSON parser

The visitor refuses values nested too deeply, arrays and objects too wide, strings and keys too long, and objects that
name a key twice; the parser refuses what follows the value.  `visit_iff` says which raw trees the visitor accepts and
as what value, apart from the order in which it meets them.
-/
namespace Guard.Wire

open Lib JsonReader
open Lib.JsonTree (mapItems mapMembers sortedItems sortedMembers EveryNumberItems EveryNumberMembers EveryKeysItems
  EveryKeysMembers mapItems_eq mapMembers_eq sortedItems_eq sortedMembers_eq tree_induction)

def maxJsonDepth : Nat := 32

def maxJsonCollectionItems : Nat := 4096

def maxJsonStringBytes : Nat := 1048576

section

variable (B : Binary64)

/-- A string token: no lone surrogate. -/
def stringToken (codes : List Nat) : Except String String :=
  match scalarString codes with
  | none => .error "lone surrogate"
  | some s => .ok s

def numberToken (t : NumberToken) : Except String (Number B.F) :=
  match nativeNumber B t with
  | none => .error "number out of range"
  | some n => .ok n

mutual

/-- A value at a depth the seed has checked. -/
def visit (depth : Nat) : RawTree → Except String (NativeValue B.F)
  | .null => .ok .null
  | .bool b => .ok (.bool b)
  | .num t => (numberToken B t).map .num
  | .str codes => (stringToken codes).bind (fun s =>
      if maxJsonStringBytes < s.utf8ByteSize then .error "native_json_string_too_large" else .ok (.str s))
  | .arr items => (visitSeq depth 0 items).map .arr
  | .obj members => (visitMap depth [] members).map (fun ms => .obj (ms.mergeSort KeyOrder.bytes.members))

/-- The rest of an array after `count` items. -/
def visitSeq (depth count : Nat) : List RawTree → Except String (List (NativeValue B.F))
  | [] => .ok []
  | v :: vs =>
    if maxJsonDepth < depth + 1 then .error "native_json_depth_exceeded"
    else (visit (depth + 1) v).bind (fun value =>
      if maxJsonCollectionItems ≤ count then .error "native_json_array_too_wide"
      else (visitSeq depth (count + 1) vs).map (value :: ·))

/-- The rest of an object after the keys `seen`. -/
def visitMap (depth : Nat) (seen : List String) :
    List (List Nat × RawTree) → Except String (List (String × NativeValue B.F))
  | [] => .ok []
  | (codes, v) :: ms => (stringToken codes).bind (fun key =>
      if maxJsonStringBytes < key.utf8ByteSize then .error "native_json_key_too_large"
      else if key ∈ seen then .error "native_json_duplicate_key"
      else if maxJsonCollectionItems ≤ seen.length then .error "native_json_object_too_wide"
      else if maxJsonDepth < depth + 1 then .error "native_json_depth_exceeded"
      else (visit (depth + 1) v).bind (fun value => (visitMap depth (key :: seen) ms).map ((key, value) :: ·)))

end

/-- The seed's depth check passes at the root. -/
def parse (text : String) : Except String (NativeValue B.F) :=
  match readText text.toList with
  | none => .error "native_request_invalid_json"
  | some q => match visit B 0 q.1 with
    | .error _ => .error "native_request_invalid_json"
    | .ok v => if skipBlank q.2 = [] then .ok v else .error "native_request_trailing_json"

end

/-! ## The limits, apart from the order of checks -/

mutual

/-- Within the limits, for a value at a depth. -/
def Within {N : Type} (depth : Nat) : JsonTree String N → Prop
  | .null => True
  | .bool _ => True
  | .num _ => True
  | .str s => s.utf8ByteSize ≤ maxJsonStringBytes
  | .arr items => items.length ≤ maxJsonCollectionItems ∧ WithinItems (depth + 1) items
  | .obj members => members.length ≤ maxJsonCollectionItems ∧ WithinMembers (depth + 1) members

def WithinItems {N : Type} (depth : Nat) : List (JsonTree String N) → Prop
  | [] => True
  | v :: vs => depth ≤ maxJsonDepth ∧ Within depth v ∧ WithinItems depth vs

def WithinMembers {N : Type} (depth : Nat) : List (String × JsonTree String N) → Prop
  | [] => True
  | (k, v) :: ms =>
    depth ≤ maxJsonDepth ∧ k.utf8ByteSize ≤ maxJsonStringBytes ∧ Within depth v ∧ WithinMembers depth ms

end

theorem withinItems_iff {N : Type} {depth : Nat} : ∀ {vs : List (JsonTree String N)},
    WithinItems depth vs ↔ ∀ v ∈ vs, depth ≤ maxJsonDepth ∧ Within depth v
  | [] => by simp [WithinItems]
  | v :: vs => by simp [WithinItems, @withinItems_iff N depth vs, and_assoc]

theorem withinMembers_iff {N : Type} {depth : Nat} : ∀ {ms : List (String × JsonTree String N)},
    WithinMembers depth ms ↔
      ∀ m ∈ ms, depth ≤ maxJsonDepth ∧ m.1.utf8ByteSize ≤ maxJsonStringBytes ∧ Within depth m.2
  | [] => by simp [WithinMembers]
  | (k, v) :: ms => by simp [WithinMembers, @withinMembers_iff N depth ms, and_assoc]

section

variable {N M : Type} {o : KeyOrder String}

theorem within_map {g : N → M} (v : JsonTree String N) : ∀ depth, Within depth (v.map id g) ↔ Within depth v := by
  induction v using tree_induction with
  | null | bool | num | str => exact fun _ => Iff.rfl
  | arr vs ih =>
    intro depth
    simp only [JsonTree.map, Within, mapItems_eq, withinItems_iff, List.length_map, List.forall_mem_map]
    exact and_congr_right' (forall₂_congr fun v hv => and_congr_right' (ih v hv _))
  | obj ms ih =>
    intro depth
    simp only [JsonTree.map, Within, mapMembers_eq, withinMembers_iff, List.length_map, List.forall_mem_map, id]
    exact and_congr_right' (forall₂_congr fun m hm => and_congr_right' (and_congr_right' (ih m hm _)))

theorem within_sorted (v : JsonTree String N) : ∀ depth, Within depth (v.sorted o) ↔ Within depth v := by
  induction v using tree_induction with
  | null | bool | num | str => exact fun _ => Iff.rfl
  | arr vs ih =>
    intro depth
    simp only [JsonTree.sorted, Within, sortedItems_eq, withinItems_iff, List.length_map, List.forall_mem_map]
    exact and_congr_right' (forall₂_congr fun v hv => and_congr_right' (ih v hv _))
  | obj ms ih =>
    intro depth
    simp only [JsonTree.sorted, Within, sortedMembers_eq, withinMembers_iff, List.length_mergeSort, List.mem_mergeSort,
      List.length_map, List.forall_mem_map]
    exact and_congr_right' (forall₂_congr fun m hm => and_congr_right' (and_congr_right' (ih m hm _)))

end

/-- A value with the spelling of each of its numbers. -/
abbrev SpelledValue (F : Type) := JsonTree String (NumberToken × Number F)

namespace SpelledValue

variable {F : Type}

/-- What the reader saw. -/
def raw (u : SpelledValue F) : RawTree := u.map codePoints Prod.fst

/-- What the runtime holds. -/
def value (u : SpelledValue F) : NativeValue F := (u.map id Prod.snd).sorted KeyOrder.bytes

end SpelledValue

/-- Every number is what its spelling stands for. -/
def Spelled (B : Binary64) (u : SpelledValue B.F) : Prop := u.EveryNumber (fun p => nativeNumber B p.1 = some p.2)

section

variable {B : Binary64}

theorem stringToken_eq_ok {codes : List Nat} {s : String} : stringToken codes = .ok s ↔ codePoints s = codes := by
  unfold stringToken
  rw [← scalarString_eq_some]
  cases scalarString codes <;> simp

theorem numberToken_eq_ok {t : NumberToken} {n : Number B.F} : numberToken B t = .ok n ↔ nativeNumber B t = some n := by
  unfold numberToken
  cases nativeNumber B t <;> simp

mutual

/-- **What the visitor accepts, it accepts within the limits and as the tree it read**, members in key order. -/
theorem visit_sound : ∀ (raw : RawTree) (depth : Nat) (v : NativeValue B.F), visit B depth raw = .ok v →
    ∃ u : SpelledValue B.F, u.raw = raw ∧ u.value = v ∧ Spelled B u ∧ u.Distinct ∧ Within depth u
  | .null, depth, v, h => by
    cases h
    exact ⟨.null, rfl, rfl, trivial, trivial, trivial⟩
  | .bool b, depth, v, h => by
    cases h
    exact ⟨.bool b, rfl, rfl, trivial, trivial, trivial⟩
  | .num t, depth, v, h => by
    rw [visit] at h
    obtain ⟨n, hn, rfl⟩ := map_eq_ok.1 h
    exact ⟨.num (t, n), rfl, rfl, numberToken_eq_ok.1 hn, trivial, trivial⟩
  | .str codes, depth, v, h => by
    rw [visit] at h
    obtain ⟨s, hs, h⟩ := bind_eq_ok.1 h
    obtain ⟨hlen, h⟩ := ite_error_eq_ok.1 h
    cases h
    exact ⟨.str s, by rw [← stringToken_eq_ok.1 hs]; rfl, rfl, trivial, trivial, Nat.le_of_not_lt hlen⟩
  | .arr items, depth, v, h => by
    rw [visit] at h
    obtain ⟨vs, hvs, rfl⟩ := map_eq_ok.1 h
    obtain ⟨us, hraw, hval, hsp, hd, hw, hlen⟩ := visitSeq_sound items depth 0 vs hvs
    refine ⟨.arr us, congrArg JsonTree.arr hraw, congrArg JsonTree.arr hval, hsp, hd, ?_, hw⟩
    rcases hlen with rfl | hlen
    · exact Nat.zero_le _
    · simpa using hlen
  | .obj members, depth, v, h => by
    rw [visit] at h
    obtain ⟨ms, hms, rfl⟩ := map_eq_ok.1 h
    obtain ⟨us, hraw, hval, hsp, hd, hw, hlen, hnodup, -⟩ := visitMap_sound members depth [] ms hms
    refine ⟨.obj us, congrArg JsonTree.obj hraw, ?_, hsp, ⟨hnodup, hd⟩, ?_, hw⟩
    · rw [SpelledValue.value, JsonTree.map, JsonTree.sorted, hval]
    · rcases hlen with rfl | hlen
      · exact Nat.zero_le _
      · simpa using hlen

theorem visitSeq_sound : ∀ (raws : List RawTree) (depth count : Nat) (vs : List (NativeValue B.F)),
    visitSeq B depth count raws = .ok vs →
    ∃ us : List (SpelledValue B.F), mapItems codePoints Prod.fst us = raws ∧
      sortedItems KeyOrder.bytes (mapItems id Prod.snd us) = vs ∧
      EveryNumberItems (fun p => nativeNumber B p.1 = some p.2) us ∧ EveryKeysItems List.Nodup us ∧
      WithinItems (depth + 1) us ∧ (us = [] ∨ count + us.length ≤ maxJsonCollectionItems)
  | [], depth, count, vs, h => by
    cases h
    exact ⟨[], rfl, rfl, trivial, trivial, trivial, Or.inl rfl⟩
  | raw :: raws, depth, count, vs, h => by
    rw [visitSeq] at h
    obtain ⟨hdepth, h⟩ := ite_error_eq_ok.1 h
    obtain ⟨v, hv, h⟩ := bind_eq_ok.1 h
    obtain ⟨hcount, h⟩ := ite_error_eq_ok.1 h
    obtain ⟨vs, hvs, rfl⟩ := map_eq_ok.1 h
    obtain ⟨u, rfl, rfl, hsp, hd, hw⟩ := visit_sound raw (depth + 1) v hv
    obtain ⟨us, rfl, rfl, hsps, hds, hws, hlen⟩ := visitSeq_sound raws depth (count + 1) vs hvs
    refine ⟨u :: us, rfl, rfl, ⟨hsp, hsps⟩, ⟨hd, hds⟩, ⟨Nat.le_of_not_lt hdepth, hw, hws⟩, Or.inr ?_⟩
    rcases hlen with rfl | hlen
    · simp only [List.length_cons, List.length_nil]
      omega
    · simp only [List.length_cons]
      omega

theorem visitMap_sound : ∀ (raws : List (List Nat × RawTree)) (depth : Nat) (seen : List String)
    (ms : List (String × NativeValue B.F)), visitMap B depth seen raws = .ok ms →
    ∃ us : List (String × SpelledValue B.F), mapMembers codePoints Prod.fst us = raws ∧
      sortedMembers KeyOrder.bytes (mapMembers id Prod.snd us) = ms ∧
      EveryNumberMembers (fun p => nativeNumber B p.1 = some p.2) us ∧ EveryKeysMembers List.Nodup us ∧
      WithinMembers (depth + 1) us ∧ (us = [] ∨ seen.length + us.length ≤ maxJsonCollectionItems) ∧
      (us.map Prod.fst).Nodup ∧ (us.map Prod.fst).Disjoint seen
  | [], depth, seen, ms, h => by
    cases h
    exact ⟨[], rfl, rfl, trivial, trivial, trivial, Or.inl rfl, List.nodup_nil, List.disjoint_nil_left _⟩
  | (codes, raw) :: raws, depth, seen, ms, h => by
    rw [visitMap] at h
    obtain ⟨key, hkey, h⟩ := bind_eq_ok.1 h
    obtain ⟨hbytes, h⟩ := ite_error_eq_ok.1 h
    obtain ⟨hseen, h⟩ := ite_error_eq_ok.1 h
    obtain ⟨hwide, h⟩ := ite_error_eq_ok.1 h
    obtain ⟨hdepth, h⟩ := ite_error_eq_ok.1 h
    obtain ⟨v, hv, h⟩ := bind_eq_ok.1 h
    obtain ⟨ms, hms, rfl⟩ := map_eq_ok.1 h
    obtain ⟨u, rfl, rfl, hsp, hd, hw⟩ := visit_sound raw (depth + 1) v hv
    obtain ⟨us, rfl, rfl, hsps, hds, hws, hlen, hnodup, hfresh⟩ := visitMap_sound raws depth (key :: seen) ms hms
    obtain ⟨hkey', hfresh⟩ := List.disjoint_cons_right.1 hfresh
    refine ⟨(key, u) :: us, ?_, rfl, ⟨hsp, hsps⟩, ⟨hd, hds⟩,
      ⟨Nat.le_of_not_lt hdepth, Nat.le_of_not_lt hbytes, hw, hws⟩, Or.inr ?_, List.nodup_cons.2 ⟨hkey', hnodup⟩,
      List.disjoint_cons_left.2 ⟨hseen, hfresh⟩⟩
    · rw [mapMembers, stringToken_eq_ok.1 hkey]
      rfl
    · rcases hlen with rfl | hlen
      · simp only [List.length_cons, List.length_nil]
        omega
      · simp only [List.length_cons] at hlen ⊢
        omega

end

mutual

/-- **Every tree within the limits is accepted** when no object names a key twice. -/
theorem visit_complete : ∀ (u : SpelledValue B.F) (depth : Nat), Spelled B u → u.Distinct → Within depth u →
    visit B depth u.raw = .ok u.value
  | .null, _, _, _, _ => rfl
  | .bool _, _, _, _, _ => rfl
  | .num (t, n), depth, hsp, _, _ => by
    simp only [SpelledValue.raw, JsonTree.map, visit]
    rw [numberToken_eq_ok.2 hsp]
    rfl
  | .str s, depth, _, _, hw => by
    simp only [SpelledValue.raw, JsonTree.map, visit]
    rw [stringToken_eq_ok.2 rfl]
    exact ite_error_eq_ok.2 ⟨Nat.not_lt.2 hw, rfl⟩
  | .arr us, depth, hsp, hd, hw => by
    simp only [SpelledValue.raw, JsonTree.map, visit]
    rw [visitSeq_complete us depth 0 hsp hd hw.2 (by simpa using hw.1)]
    rfl
  | .obj us, depth, hsp, hd, hw => by
    simp only [SpelledValue.raw, JsonTree.map, visit]
    rw [visitMap_complete us depth [] hsp hd.2 hw.2 (by simpa using hw.1) hd.1 (List.disjoint_nil_right _)]
    rfl

theorem visitSeq_complete : ∀ (us : List (SpelledValue B.F)) (depth count : Nat),
    EveryNumberItems (fun p => nativeNumber B p.1 = some p.2) us → EveryKeysItems List.Nodup us →
    WithinItems (depth + 1) us → count + us.length ≤ maxJsonCollectionItems →
    visitSeq B depth count (mapItems codePoints Prod.fst us) =
      .ok (sortedItems KeyOrder.bytes (mapItems id Prod.snd us))
  | [], _, _, _, _, _, _ => rfl
  | u :: us, depth, count, hsp, hd, hw, hlen => by
    simp only [List.length_cons] at hlen
    have hv := visit_complete u (depth + 1) hsp.1 hd.1 hw.2.1
    have hvs := visitSeq_complete us depth (count + 1) hsp.2 hd.2 hw.2.2 (by omega)
    rw [mapItems, visitSeq]
    refine ite_error_eq_ok.2 ⟨Nat.not_lt.2 hw.1, bind_eq_ok.2 ⟨u.value, hv, ?_⟩⟩
    exact ite_error_eq_ok.2 ⟨by omega, map_eq_ok.2 ⟨_, hvs, rfl⟩⟩

theorem visitMap_complete : ∀ (us : List (String × SpelledValue B.F)) (depth : Nat) (seen : List String),
    EveryNumberMembers (fun p => nativeNumber B p.1 = some p.2) us → EveryKeysMembers List.Nodup us →
    WithinMembers (depth + 1) us → seen.length + us.length ≤ maxJsonCollectionItems →
    (us.map Prod.fst).Nodup → (us.map Prod.fst).Disjoint seen →
    visitMap B depth seen (mapMembers codePoints Prod.fst us) =
      .ok (sortedMembers KeyOrder.bytes (mapMembers id Prod.snd us))
  | [], _, _, _, _, _, _, _, _ => rfl
  | (k, u) :: us, depth, seen, hsp, hd, hw, hlen, hnodup, hfresh => by
    simp only [List.length_cons] at hlen
    obtain ⟨hk, hnodup⟩ := List.nodup_cons.1 hnodup
    obtain ⟨hnew, hfresh⟩ := List.disjoint_cons_left.1 hfresh
    have hv := visit_complete u (depth + 1) hsp.1 hd.1 hw.2.2.1
    have hms := visitMap_complete us depth (k :: seen) hsp.2 hd.2 hw.2.2.2 (by simp only [List.length_cons]; omega)
      hnodup (List.disjoint_cons_right.2 ⟨hk, hfresh⟩)
    rw [mapMembers, visitMap]
    refine bind_eq_ok.2 ⟨k, stringToken_eq_ok.2 rfl, ite_error_eq_ok.2 ⟨Nat.not_lt.2 hw.2.1, ?_⟩⟩
    refine ite_error_eq_ok.2 ⟨hnew, ite_error_eq_ok.2 ⟨by omega, ?_⟩⟩
    refine ite_error_eq_ok.2 ⟨Nat.not_lt.2 hw.1, bind_eq_ok.2 ⟨u.value, hv, ?_⟩⟩
    exact map_eq_ok.2 ⟨_, hms, rfl⟩

end

/-- **The visitor accepts exactly the trees within the limits whose objects repeat no key.** -/
theorem visit_iff {raw : RawTree} {depth : Nat} {v : NativeValue B.F} : visit B depth raw = .ok v ↔
    ∃ u : SpelledValue B.F, u.raw = raw ∧ u.value = v ∧ Spelled B u ∧ u.Distinct ∧ Within depth u := by
  constructor
  · exact visit_sound raw depth v
  · rintro ⟨u, rfl, rfl, hsp, hd, hw⟩
    exact visit_complete u depth hsp hd hw

/-- What the parser accepts is one document, and the visitor accepts it. -/
theorem parse_eq_ok {text : String} {v : NativeValue B.F} : parse B text = .ok v ↔
    ∃ u : SpelledValue B.F, readDocument text.toList = some u.raw ∧ u.value = v ∧ Spelled B u ∧ u.Distinct ∧
      Within 0 u := by
  have hvisit := @visit_iff B
  unfold parse readDocument
  cases hread : readText text.toList with
  | none => simp
  | some q =>
    simp only [Option.bind_some]
    cases hv : visit B 0 q.1 with
    | error e =>
      constructor
      · intro h; cases h
      · rintro ⟨u, hu, rfl, hsp, hd, hw⟩
        split at hu
        · rw [Option.some.inj hu, visit_complete u 0 hsp hd hw] at hv
          cases hv
        · cases hu
    | ok w =>
      by_cases hblank : skipBlank q.2 = []
      · simp only [hblank, if_true, Except.ok.injEq, Option.some.injEq]
        constructor
        · rintro rfl
          obtain ⟨u, hu, rest⟩ := hvisit.1 hv
          exact ⟨u, hu.symm, rest⟩
        · rintro ⟨u, hu, hrest⟩
          have := hvisit.2 ⟨u, hu.symm, hrest⟩
          rw [hv] at this
          exact Except.ok.inj this
      · simp [hblank]

end

end Guard.Wire
