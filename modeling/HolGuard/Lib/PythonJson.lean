import HolGuard.Lib.Checks
import HolGuard.Lib.SerdeJson
/-!
# Python's json module

A string is its code points, lone surrogates included; an integer has any size `int()` still reads; an object is a
dictionary in insertion order, or whatever a hook makes of the pairs it was spelled with.  Of two faults in one text the
malformed text is reported first.
-/
namespace Lib

open JsonReader

inductive PyNumber (F : Type) where
  | int (i : Int)
  | float (f : F)

abbrev PyValue (F : Type) := JsonTree (List Nat) (PyNumber F)

/-! ## json.loads -/

/-- The digits `int()` reads at most. -/
def maxStrDigits : Nat := 4300

def pyNumber (B : Binary64) : NumberToken → Except String (PyNumber B.F)
  | .numeral n =>
    if n.fraction.isSome || n.exponent.isSome then .ok (.float (B.python n))
    else if maxStrDigits < n.digits.length then .error "ValueError"
    else .ok (.int n.integer)
  | .nan => .ok (.float B.nan)
  | .infinity => .ok (.float B.infinity)
  | .negInfinity => .ok (.float B.negInfinity)

/-- What becomes of the pairs an object was spelled with. -/
abbrev PairsHook (F : Type) := List (List Nat × PyValue F) → Except String (List (List Nat × PyValue F))

section

variable (B : Binary64) (hook : PairsHook B.F)

mutual

def pyValue : RawTree → Except String (PyValue B.F)
  | .null => .ok .null
  | .bool b => .ok (.bool b)
  | .num t => (pyNumber B t).map .num
  | .str codes => .ok (.str codes)
  | .arr items => (pyItems items).map .arr
  | .obj members => (pyMembers members).bind (fun ms => (hook ms).map .obj)

def pyItems : List RawTree → Except String (List (PyValue B.F))
  | [] => .ok []
  | v :: vs => (pyValue v).bind (fun w => (pyItems vs).map (w :: ·))

def pyMembers : List (List Nat × RawTree) → Except String (List (List Nat × PyValue B.F))
  | [] => .ok []
  | (k, v) :: ms => (pyValue v).bind (fun w => (pyMembers ms).map ((k, w) :: ·))

end

def pyLoads (text : String) : Except String (PyValue B.F) :=
  match readDocument text.toList with
  | none => .error "JSONDecodeError"
  | some raw => pyValue B hook raw

end

/-- Without a hook the last of several pairs with one key wins. -/
def dictHook {F : Type} : PairsHook F := fun ms => .ok (dictOf ms)

/-- A hook that has nothing to say about pairs whose keys differ. -/
def KeepsDistinct {F : Type} (hook : PairsHook F) : Prop :=
  ∀ ms : List (List Nat × PyValue F), (ms.map Prod.fst).Nodup → hook ms = .ok ms

theorem keepsDistinct_dictHook {F : Type} : KeepsDistinct (dictHook (F := F)) := fun ms h => by
  rw [dictHook, dictOf_of_nodup h]

section

variable {B : Binary64} {hook : PairsHook B.F} {A M : Type} {code : A → List Nat} {token : M → NumberToken}
  {number : M → PyNumber B.F}

mutual

/-- **A tree whose objects repeat no key is read as it stands.** -/
theorem pyValue_map (hhook : KeepsDistinct hook) (hcode : Function.Injective code) : ∀ u : JsonTree A M, u.Distinct →
    u.EveryNumber (fun n => pyNumber B (token n) = .ok (number n)) →
    pyValue B hook (u.map code token) = .ok (u.map code number)
  | .null, _, _ => rfl
  | .bool _, _, _ => rfl
  | .num n, _, hn => by
    rw [JsonTree.map, pyValue]
    exact map_eq_ok.2 ⟨_, hn, rfl⟩
  | .str _, _, _ => rfl
  | .arr us, hd, hn => by
    rw [JsonTree.map, pyValue, pyItems_map hhook hcode us hd hn]
    rfl
  | .obj us, hd, hn => by
    have hnodup : ((JsonTree.mapMembers code number us).map Prod.fst).Nodup := by
      rw [JsonTree.map_fst_mapMembers]
      exact (List.nodup_map_iff hcode).2 hd.1
    rw [JsonTree.map, pyValue, pyMembers_map hhook hcode us hd.2 hn]
    exact map_eq_ok.2 ⟨_, hhook _ hnodup, rfl⟩

theorem pyItems_map (hhook : KeepsDistinct hook) (hcode : Function.Injective code) : ∀ us : List (JsonTree A M),
    JsonTree.EveryKeysItems List.Nodup us →
    JsonTree.EveryNumberItems (fun n => pyNumber B (token n) = .ok (number n)) us →
    pyItems B hook (JsonTree.mapItems code token us) = .ok (JsonTree.mapItems code number us)
  | [], _, _ => rfl
  | u :: us, hd, hn => by
    rw [JsonTree.mapItems, pyItems, pyValue_map hhook hcode u hd.1 hn.1]
    exact map_eq_ok.2 ⟨_, pyItems_map hhook hcode us hd.2 hn.2, rfl⟩

theorem pyMembers_map (hhook : KeepsDistinct hook) (hcode : Function.Injective code) : ∀ us : List (A × JsonTree A M),
    JsonTree.EveryKeysMembers List.Nodup us →
    JsonTree.EveryNumberMembers (fun n => pyNumber B (token n) = .ok (number n)) us →
    pyMembers B hook (JsonTree.mapMembers code token us) = .ok (JsonTree.mapMembers code number us)
  | [], _, _ => rfl
  | (k, u) :: us, hd, hn => by
    rw [JsonTree.mapMembers, pyMembers, pyValue_map hhook hcode u hd.1 hn.1]
    exact map_eq_ok.2 ⟨_, pyMembers_map hhook hcode us hd.2 hn.2, rfl⟩

end

mutual

/-- Every number of a text Python read was one it reads. -/
theorem everyNumber_of_pyValue : ∀ (raw : RawTree) (v : PyValue B.F), pyValue B hook raw = .ok v →
    raw.EveryNumber (fun t => ∃ n, pyNumber B t = .ok n)
  | .null, _, _ => trivial
  | .bool _, _, _ => trivial
  | .str _, _, _ => trivial
  | .num t, v, h => by
    rw [pyValue] at h
    obtain ⟨n, hn, -⟩ := map_eq_ok.1 h
    exact ⟨n, hn⟩
  | .arr items, v, h => by
    rw [pyValue] at h
    obtain ⟨vs, hvs, -⟩ := map_eq_ok.1 h
    exact everyNumber_of_pyItems items vs hvs
  | .obj members, v, h => by
    rw [pyValue] at h
    obtain ⟨ms, hms, -⟩ := bind_eq_ok.1 h
    exact everyNumber_of_pyMembers members ms hms

theorem everyNumber_of_pyItems : ∀ (raws : List RawTree) (vs : List (PyValue B.F)), pyItems B hook raws = .ok vs →
    JsonTree.EveryNumberItems (fun t => ∃ n, pyNumber B t = .ok n) raws
  | [], _, _ => trivial
  | raw :: raws, vs, h => by
    rw [pyItems] at h
    obtain ⟨v, hv, h⟩ := bind_eq_ok.1 h
    obtain ⟨ws, hws, -⟩ := map_eq_ok.1 h
    exact ⟨everyNumber_of_pyValue raw v hv, everyNumber_of_pyItems raws ws hws⟩

theorem everyNumber_of_pyMembers : ∀ (raws : List (List Nat × RawTree)) (ms : List (List Nat × PyValue B.F)),
    pyMembers B hook raws = .ok ms → JsonTree.EveryNumberMembers (fun t => ∃ n, pyNumber B t = .ok n) raws
  | [], _, _ => trivial
  | (k, raw) :: raws, ms, h => by
    rw [pyMembers] at h
    obtain ⟨v, hv, h⟩ := bind_eq_ok.1 h
    obtain ⟨ws, hws, -⟩ := map_eq_ok.1 h
    exact ⟨everyNumber_of_pyValue raw v hv, everyNumber_of_pyMembers raws ws hws⟩

end

end

/-! ## json.dumps with sorted keys and compact separators -/

def pyNumberText (B : Binary64) : PyNumber B.F → List Char
  | .int i => intText i
  | .float f => B.repr f

/-- With `allow_nan=False` only finite floats are written. -/
def PyNumber.Finite (B : Binary64) : PyNumber B.F → Prop
  | .int _ => True
  | .float f => B.isFinite f = true

instance (B : Binary64) : DecidablePred (PyNumber.Finite B)
  | .int _ => inferInstanceAs (Decidable True)
  | .float f => inferInstanceAs (Decidable (B.isFinite f = true))

/-- A string with its characters as they are; only for code points that are scalars. -/
def unicodeString (codes : List Nat) : List Char := '"' :: ((codes.map Char.ofNat).flatMap escapeChar ++ ['"'])

theorem unicodeString_codePoints (s : String) : unicodeString (codePoints s) = writeString s := by
  have h : (codePoints s).map Char.ofNat = s.toList := by
    rw [codePoints, List.map_map]
    exact (List.map_congr_left (fun c _ => Char.ofNat_toNat c)).trans (List.map_id _)
  rw [unicodeString, h, writeString]

def pyDumps (B : Binary64) (str : List Nat → List Char) (v : PyValue B.F) : Except String (List Char) :=
  if v.EveryNumber (PyNumber.Finite B) then .ok ((v.sorted KeyOrder.codes).write str (pyNumberText B))
  else .error "ValueError"

end Lib
