import HolGuard.Lib.Text
/-!
# JSON values over any strings and numbers

A JSON value is a tree; what a string and what a number is differs from runtime to runtime, so both are parameters.  The
members of an object are listed in the order the runtime keeps them.  `sorted` puts the members of every object in key
order, `write` is the compact text of a value as its members stand, and `map` reads a tree of one runtime as a tree of
another.
-/
namespace Lib

inductive JsonTree (S N : Type) where
  | null
  | bool (b : Bool)
  | num (n : N)
  | str (s : S)
  | arr (items : List (JsonTree S N))
  | obj (members : List (S × JsonTree S N))

/-- An order of the keys of objects. -/
structure KeyOrder (S : Type) where
  le : S → S → Bool
  trans : ∀ a b c, le a b = true → le b c = true → le a c = true
  total : ∀ a b, (le a b || le b a) = true

namespace KeyOrder

variable {S : Type} (o : KeyOrder S)

def members {α : Type} (a b : S × α) : Bool := o.le a.1 b.1

def lt (a b : S) : Prop := o.le a b = true ∧ a ≠ b

theorem pairwise_lt_mergeSort {keys : List S} (h : keys.Nodup) : (keys.mergeSort o.le).Pairwise o.lt :=
  (List.pairwise_mergeSort o.trans o.total keys).and ((List.mergeSort_perm keys o.le).nodup_iff.2 h)

theorem map_fst_mergeSort {α : Type} (ms : List (S × α)) :
    (ms.mergeSort o.members).map Prod.fst = (ms.map Prod.fst).mergeSort o.le :=
  List.map_mergeSort (fun _ _ _ _ => rfl)

end KeyOrder

/-! ## Dictionaries -/

section Dictionary

variable {S α : Type} [DecidableEq S]

/-- Setting a key keeps the place it has. -/
def dictSet (d : List (S × α)) (k : S) (v : α) : List (S × α) :=
  if k ∈ d.map Prod.fst then d.map (fun p => if p.1 = k then (k, v) else p) else d ++ [(k, v)]

/-- The last of several pairs with one key wins. -/
def dictOf (ms : List (S × α)) : List (S × α) := ms.foldl (fun d m => dictSet d m.1 m.2) []

theorem foldl_dictSet : ∀ (ms d : List (S × α)), (ms.map Prod.fst).Nodup →
    (∀ k ∈ ms.map Prod.fst, k ∉ d.map Prod.fst) → ms.foldl (fun d m => dictSet d m.1 m.2) d = d ++ ms
  | [], d, _, _ => by simp
  | (k, v) :: ms, d, hnodup, hfresh => by
    obtain ⟨hk, hnodup⟩ := List.nodup_cons.1 hnodup
    rw [List.foldl_cons, dictSet, if_neg (hfresh k List.mem_cons_self), foldl_dictSet ms _ hnodup]
    · simp
    · intro j hj hin
      rw [List.map_append, List.mem_append] at hin
      rcases hin with hin | hin
      · exact hfresh j (List.mem_cons_of_mem k hj) hin
      · have : j = k := by simpa using hin
        exact hk (this ▸ hj)

theorem dictOf_of_nodup {ms : List (S × α)} (h : (ms.map Prod.fst).Nodup) : dictOf ms = ms := by
  rw [dictOf, foldl_dictSet ms [] h (fun _ _ h => by cases h), List.nil_append]

end Dictionary

namespace JsonTree

variable {S N : Type}

/-- Induction with a hypothesis for every item and every member. -/
@[elab_as_elim]
theorem tree_induction {motive : JsonTree S N → Prop} (null : motive .null) (bool : ∀ b, motive (.bool b))
    (num : ∀ n, motive (.num n)) (str : ∀ s, motive (.str s)) (arr : ∀ vs, (∀ v ∈ vs, motive v) → motive (.arr vs))
    (obj : ∀ ms, (∀ m ∈ ms, motive m.2) → motive (.obj ms)) (v : JsonTree S N) : motive v :=
  @JsonTree.rec S N motive (fun vs => ∀ v ∈ vs, motive v) (fun ms => ∀ m ∈ ms, motive m.2) (fun m => motive m.2)
    null bool num str arr obj nofun (fun _ _ hv hvs => List.forall_mem_cons.2 ⟨hv, hvs⟩)
    nofun (fun _ _ hm hms => List.forall_mem_cons.2 ⟨hm, hms⟩) (fun _ _ hv => hv) v

/-! ## Members in key order -/

section Order

variable (o : KeyOrder S)

mutual

/-- The members of every object in key order. -/
def sorted : JsonTree S N → JsonTree S N
  | .arr items => .arr (sortedItems items)
  | .obj members => .obj ((sortedMembers members).mergeSort o.members)
  | .null => .null
  | .bool b => .bool b
  | .num n => .num n
  | .str s => .str s

def sortedItems : List (JsonTree S N) → List (JsonTree S N)
  | [] => []
  | v :: vs => sorted v :: sortedItems vs

def sortedMembers : List (S × JsonTree S N) → List (S × JsonTree S N)
  | [] => []
  | (k, v) :: ms => (k, sorted v) :: sortedMembers ms

end

end Order

mutual

/-- What holds of the key list of every object. -/
def EveryKeys (P : List S → Prop) : JsonTree S N → Prop
  | .arr items => EveryKeysItems P items
  | .obj members => P (members.map Prod.fst) ∧ EveryKeysMembers P members
  | .null => True
  | .bool _ => True
  | .num _ => True
  | .str _ => True

def EveryKeysItems (P : List S → Prop) : List (JsonTree S N) → Prop
  | [] => True
  | v :: vs => EveryKeys P v ∧ EveryKeysItems P vs

def EveryKeysMembers (P : List S → Prop) : List (S × JsonTree S N) → Prop
  | [] => True
  | (_, v) :: ms => EveryKeys P v ∧ EveryKeysMembers P ms

end

/-- No object names a key twice. -/
def Distinct (v : JsonTree S N) : Prop := v.EveryKeys List.Nodup

/-- The keys of every object strictly ascend. -/
def Ordered (o : KeyOrder S) (v : JsonTree S N) : Prop := v.EveryKeys (List.Pairwise o.lt)

theorem everyKeysItems_iff {P : List S → Prop} : ∀ {vs : List (JsonTree S N)},
    EveryKeysItems P vs ↔ ∀ v ∈ vs, EveryKeys P v
  | [] => by simp [EveryKeysItems]
  | v :: vs => by simp [EveryKeysItems, @everyKeysItems_iff P vs]

theorem everyKeysMembers_iff {P : List S → Prop} : ∀ {ms : List (S × JsonTree S N)},
    EveryKeysMembers P ms ↔ ∀ m ∈ ms, EveryKeys P m.2
  | [] => by simp [EveryKeysMembers]
  | (k, v) :: ms => by simp [EveryKeysMembers, @everyKeysMembers_iff P ms]

theorem EveryKeys.imp {P Q : List S → Prop} (h : ∀ ks, P ks → Q ks) {v : JsonTree S N} :
    v.EveryKeys P → v.EveryKeys Q := by
  induction v using tree_induction with
  | null | bool | num | str => exact id
  | arr vs ih =>
    simp only [EveryKeys, everyKeysItems_iff]
    exact fun hv v hm => ih v hm (hv v hm)
  | obj ms ih =>
    simp only [EveryKeys, everyKeysMembers_iff]
    exact fun hv => ⟨h _ hv.1, fun m hm => ih m hm (hv.2 m hm)⟩

theorem Ordered.distinct {o : KeyOrder S} {v : JsonTree S N} (h : v.Ordered o) : v.Distinct :=
  EveryKeys.imp (fun _ hk => hk.imp And.right) h

variable {o : KeyOrder S}

theorem sortedItems_eq : ∀ vs : List (JsonTree S N), sortedItems o vs = vs.map (sorted o)
  | [] => rfl
  | v :: vs => by rw [sortedItems, sortedItems_eq vs, List.map_cons]

theorem sortedMembers_eq : ∀ ms : List (S × JsonTree S N), sortedMembers o ms = ms.map fun m => (m.1, sorted o m.2)
  | [] => rfl
  | (k, v) :: ms => by rw [sortedMembers, sortedMembers_eq ms, List.map_cons]

theorem map_fst_sortedMembers (ms : List (S × JsonTree S N)) : (sortedMembers o ms).map Prod.fst = ms.map Prod.fst := by
  simp [sortedMembers_eq, Function.comp_def]

/-- **Sorting puts distinct keys in strict order.** -/
theorem ordered_sorted (v : JsonTree S N) : v.Distinct → (sorted o v).Ordered o := by
  unfold Distinct Ordered
  induction v using tree_induction with
  | null | bool | num | str => exact id
  | arr vs ih =>
    simp only [sorted, EveryKeys, everyKeysItems_iff, sortedItems_eq, List.forall_mem_map]
    exact fun h v hv => ih v hv (h v hv)
  | obj ms ih =>
    simp only [sorted, EveryKeys, everyKeysMembers_iff, List.mem_mergeSort, o.map_fst_mergeSort, map_fst_sortedMembers]
    rw [sortedMembers_eq, List.forall_mem_map]
    exact fun h => ⟨o.pairwise_lt_mergeSort h.1, fun m hm => ih m hm (h.2 m hm)⟩

theorem sorted_of_ordered (v : JsonTree S N) : v.Ordered o → sorted o v = v := by
  unfold Ordered
  induction v using tree_induction with
  | null | bool | num | str => exact fun _ => rfl
  | arr vs ih =>
    simp only [sorted, EveryKeys, everyKeysItems_iff, sortedItems_eq]
    exact fun h => congrArg JsonTree.arr ((List.map_congr_left fun v hv => ih v hv (h v hv)).trans (List.map_id' vs))
  | obj ms ih =>
    simp only [sorted, EveryKeys, everyKeysMembers_iff, sortedMembers_eq]
    intro h
    have hkeys : ms.Pairwise (fun a b => o.members a b = true) := (List.pairwise_map.1 h.1).imp And.left
    have hsame : ms.map (fun m => (m.1, sorted o m.2)) = ms :=
      (List.map_congr_left fun m hm => congrArg (Prod.mk m.1) (ih m hm (h.2 m hm))).trans (List.map_id' ms)
    rw [hsame, List.mergeSort_of_pairwise hkeys]

/-! ## The compact text -/

section Write

variable (str : S → List Char) (num : N → List Char)

mutual

def write : JsonTree S N → List Char
  | .null => ['n', 'u', 'l', 'l']
  | .bool true => ['t', 'r', 'u', 'e']
  | .bool false => ['f', 'a', 'l', 's', 'e']
  | .num n => num n
  | .str s => str s
  | .arr [] => ['[', ']']
  | .arr (v :: vs) => '[' :: (write v ++ writeItems vs)
  | .obj [] => ['{', '}']
  | .obj ((k, v) :: ms) => '{' :: (str k ++ ':' :: (write v ++ writeMembers ms))

/-- The items after the first, and the closing bracket. -/
def writeItems : List (JsonTree S N) → List Char
  | [] => [']']
  | v :: vs => ',' :: (write v ++ writeItems vs)

/-- The members after the first, and the closing brace. -/
def writeMembers : List (S × JsonTree S N) → List Char
  | [] => ['}']
  | (k, v) :: ms => ',' :: (str k ++ ':' :: (write v ++ writeMembers ms))

end

end Write

/-! ## Reading one tree as another -/

section Map

variable {T M : Type} (f : S → T) (g : N → M)

mutual

def map : JsonTree S N → JsonTree T M
  | .null => .null
  | .bool b => .bool b
  | .num n => .num (g n)
  | .str s => .str (f s)
  | .arr items => .arr (mapItems items)
  | .obj members => .obj (mapMembers members)

def mapItems : List (JsonTree S N) → List (JsonTree T M)
  | [] => []
  | v :: vs => map v :: mapItems vs

def mapMembers : List (S × JsonTree S N) → List (T × JsonTree T M)
  | [] => []
  | (k, v) :: ms => (f k, map v) :: mapMembers ms

end

theorem mapItems_eq : ∀ vs : List (JsonTree S N), mapItems f g vs = vs.map (map f g)
  | [] => rfl
  | v :: vs => by rw [mapItems, mapItems_eq vs, List.map_cons]

theorem mapMembers_eq : ∀ ms : List (S × JsonTree S N), mapMembers f g ms = ms.map (fun m => (f m.1, map f g m.2))
  | [] => rfl
  | (k, v) :: ms => by rw [mapMembers, mapMembers_eq ms, List.map_cons]

end Map

section Map

variable {T M : Type} {f : S → T} {g : N → M}

theorem map_fst_mapMembers (ms : List (S × JsonTree S N)) :
    (mapMembers f g ms).map Prod.fst = (ms.map Prod.fst).map f := by
  rw [mapMembers_eq, List.map_map, List.map_map]
  rfl

/-- Sorting before or after a renaming that keeps the order. -/
theorem sorted_map {o : KeyOrder S} {p : KeyOrder T} (h : ∀ a b, o.le a b = p.le (f a) (f b)) (v : JsonTree S N) :
    sorted p (v.map f g) = (sorted o v).map f g := by
  induction v using tree_induction with
  | null | bool | num | str => rfl
  | arr vs ih =>
    simp only [map, sorted, sortedItems_eq, mapItems_eq, List.map_map]
    exact congrArg JsonTree.arr (List.map_congr_left ih)
  | obj ms ih =>
    have hsort := List.map_mergeSort (l := sortedMembers o ms) (r := o.members) (s := p.members)
      (f := fun m => (f m.1, m.2.map f g)) (fun a _ b _ => h a.1 b.1)
    have hsame : sortedMembers p (mapMembers f g ms) = mapMembers f g (sortedMembers o ms) := by
      simp only [sortedMembers_eq, mapMembers_eq, List.map_map]
      exact List.map_congr_left fun m hm => congrArg (Prod.mk _) (ih m hm)
    simp only [map, sorted]
    rw [hsame, mapMembers_eq, mapMembers_eq, hsort]

mutual

theorem write_map {str : T → List Char} {num : M → List Char} :
    ∀ v : JsonTree S N, (v.map f g).write str num = v.write (fun s => str (f s)) (fun n => num (g n))
  | .null => rfl
  | .bool true => rfl
  | .bool false => rfl
  | .num _ => rfl
  | .str _ => rfl
  | .arr [] => rfl
  | .arr (v :: vs) => by simp only [map, mapItems, write, write_map v, writeItems_map vs]
  | .obj [] => rfl
  | .obj ((k, v) :: ms) => by simp only [map, mapMembers, write, write_map v, writeMembers_map ms]

theorem writeItems_map {str : T → List Char} {num : M → List Char} : ∀ vs : List (JsonTree S N),
    writeItems str num (mapItems f g vs) = writeItems (fun s => str (f s)) (fun n => num (g n)) vs
  | [] => rfl
  | v :: vs => by simp only [mapItems, writeItems, write_map v, writeItems_map vs]

theorem writeMembers_map {str : T → List Char} {num : M → List Char} : ∀ ms : List (S × JsonTree S N),
    writeMembers str num (mapMembers f g ms) = writeMembers (fun s => str (f s)) (fun n => num (g n)) ms
  | [] => rfl
  | (k, v) :: ms => by simp only [mapMembers, writeMembers, write_map v, writeMembers_map ms]

end

theorem map_map {T' M' : Type} {f' : T → T'} {g' : M → M'} (v : JsonTree S N) :
    (v.map f g).map f' g' = v.map (fun s => f' (f s)) (fun n => g' (g n)) := by
  induction v using tree_induction with
  | null | bool | num | str => rfl
  | arr vs ih =>
    simp only [map, mapItems_eq, List.map_map]
    exact congrArg JsonTree.arr (List.map_congr_left ih)
  | obj ms ih =>
    simp only [map, mapMembers_eq, List.map_map]
    exact congrArg JsonTree.obj (List.map_congr_left fun m hm => congrArg (Prod.mk _) (ih m hm))

/-- An injective renaming keeps keys apart. -/
theorem distinct_map (hf : Function.Injective f) (v : JsonTree S N) : (v.map f g).Distinct ↔ v.Distinct := by
  unfold Distinct
  induction v using tree_induction with
  | null | bool | num | str => exact Iff.rfl
  | arr vs ih =>
    simp only [map, EveryKeys, everyKeysItems_iff, mapItems_eq, List.forall_mem_map]
    exact forall₂_congr ih
  | obj ms ih =>
    simp only [map, EveryKeys, everyKeysMembers_iff, map_fst_mapMembers, List.nodup_map_iff hf]
    rw [mapMembers_eq, List.forall_mem_map]
    exact and_congr_right' (forall₂_congr ih)

end Map

/-! ## Reading back -/

section Read

variable {T M : Type} (f : S → Option T) (g : N → Option M)

mutual

/-- `map` by readings that may fail. -/
def read : JsonTree S N → Option (JsonTree T M)
  | .null => some .null
  | .bool b => some (.bool b)
  | .num n => (g n).map .num
  | .str s => (f s).map .str
  | .arr items => (readItems items).map .arr
  | .obj members => (readMembers members).map .obj

def readItems : List (JsonTree S N) → Option (List (JsonTree T M))
  | [] => some []
  | v :: vs => (read v).bind (fun w => (readItems vs).map (w :: ·))

def readMembers : List (S × JsonTree S N) → Option (List (T × JsonTree T M))
  | [] => some []
  | (k, v) :: ms => (f k).bind (fun j => (read v).bind (fun w => (readMembers ms).map ((j, w) :: ·)))

end

variable {f g} {str : T → S} {num : M → N}

mutual

theorem read_map (hf : ∀ t, f (str t) = some t) (hg : ∀ n, g (num n) = some n) : ∀ v : JsonTree T M,
    (v.map str num).read f g = some v
  | .null => rfl
  | .bool _ => rfl
  | .num n => by rw [map, read, hg]; rfl
  | .str s => by rw [map, read, hf]; rfl
  | .arr vs => by rw [map, read, readItems_map hf hg vs]; rfl
  | .obj ms => by rw [map, read, readMembers_map hf hg ms]; rfl

theorem readItems_map (hf : ∀ t, f (str t) = some t) (hg : ∀ n, g (num n) = some n) : ∀ vs : List (JsonTree T M),
    readItems f g (mapItems str num vs) = some vs
  | [] => rfl
  | v :: vs => by rw [mapItems, readItems, read_map hf hg v, Option.bind_some, readItems_map hf hg vs]; rfl

theorem readMembers_map (hf : ∀ t, f (str t) = some t) (hg : ∀ n, g (num n) = some n) :
    ∀ ms : List (T × JsonTree T M), readMembers f g (mapMembers str num ms) = some ms
  | [] => rfl
  | (k, v) :: ms => by
    rw [mapMembers, readMembers, hf, Option.bind_some, read_map hf hg v, Option.bind_some, readMembers_map hf hg ms]
    rfl

end

theorem map_injective (hstr : Function.Injective str) (hnum : Function.Injective num) :
    Function.Injective (map str num) := by
  intro v w h
  have hread := read_map (Function.partialInv_left hstr) (Function.partialInv_left hnum)
  exact Option.some.inj ((hread v).symm.trans ((congrArg (read _ _) h).trans (hread w)))

end Read

/-! ## What every number is -/

mutual

def EveryNumber (P : N → Prop) : JsonTree S N → Prop
  | .num n => P n
  | .arr items => EveryNumberItems P items
  | .obj members => EveryNumberMembers P members
  | .null => True
  | .bool _ => True
  | .str _ => True

def EveryNumberItems (P : N → Prop) : List (JsonTree S N) → Prop
  | [] => True
  | v :: vs => EveryNumber P v ∧ EveryNumberItems P vs

def EveryNumberMembers (P : N → Prop) : List (S × JsonTree S N) → Prop
  | [] => True
  | (_, v) :: ms => EveryNumber P v ∧ EveryNumberMembers P ms

end

mutual

def decEveryNumber (P : N → Prop) [DecidablePred P] : (v : JsonTree S N) → Decidable (v.EveryNumber P)
  | .num n => inferInstanceAs (Decidable (P n))
  | .arr items => decEveryNumberItems P items
  | .obj members => decEveryNumberMembers P members
  | .null => isTrue trivial
  | .bool _ => isTrue trivial
  | .str _ => isTrue trivial

def decEveryNumberItems (P : N → Prop) [DecidablePred P] :
    (vs : List (JsonTree S N)) → Decidable (EveryNumberItems P vs)
  | [] => isTrue trivial
  | v :: vs => match decEveryNumber P v, decEveryNumberItems P vs with
    | isTrue h, isTrue hs => isTrue ⟨h, hs⟩
    | isFalse h, _ => isFalse (fun hv => h hv.1)
    | _, isFalse hs => isFalse (fun hv => hs hv.2)

def decEveryNumberMembers (P : N → Prop) [DecidablePred P] :
    (ms : List (S × JsonTree S N)) → Decidable (EveryNumberMembers P ms)
  | [] => isTrue trivial
  | (_, v) :: ms => match decEveryNumber P v, decEveryNumberMembers P ms with
    | isTrue h, isTrue hs => isTrue ⟨h, hs⟩
    | isFalse h, _ => isFalse (fun hv => h hv.1)
    | _, isFalse hs => isFalse (fun hv => hs hv.2)

end

instance (P : N → Prop) [DecidablePred P] (v : JsonTree S N) : Decidable (v.EveryNumber P) := decEveryNumber P v

section EveryNumber

variable {T M : Type} {f : S → T}

theorem everyNumberItems_iff {P : N → Prop} : ∀ {vs : List (JsonTree S N)},
    EveryNumberItems P vs ↔ ∀ v ∈ vs, EveryNumber P v
  | [] => by simp [EveryNumberItems]
  | v :: vs => by simp [EveryNumberItems, @everyNumberItems_iff P vs]

theorem everyNumberMembers_iff {P : N → Prop} : ∀ {ms : List (S × JsonTree S N)},
    EveryNumberMembers P ms ↔ ∀ m ∈ ms, EveryNumber P m.2
  | [] => by simp [EveryNumberMembers]
  | (k, v) :: ms => by simp [EveryNumberMembers, @everyNumberMembers_iff P ms]

theorem everyNumber_of_forall {P : N → Prop} (h : ∀ n, P n) (v : JsonTree S N) : v.EveryNumber P := by
  induction v using tree_induction with
  | null | bool | str => trivial
  | num n => exact h n
  | arr vs ih => exact everyNumberItems_iff.2 ih
  | obj ms ih => exact everyNumberMembers_iff.2 ih

theorem EveryNumber.and {P Q : N → Prop} {v : JsonTree S N} :
    v.EveryNumber P → v.EveryNumber Q → v.EveryNumber (fun n => P n ∧ Q n) := by
  induction v using tree_induction with
  | null | bool | str => exact fun _ _ => trivial
  | num n => exact And.intro
  | arr vs ih =>
    simp only [EveryNumber, everyNumberItems_iff]
    exact fun hp hq v hv => ih v hv (hp v hv) (hq v hv)
  | obj ms ih =>
    simp only [EveryNumber, everyNumberMembers_iff]
    exact fun hp hq m hm => ih m hm (hp m hm) (hq m hm)

theorem EveryNumber.imp {P Q : N → Prop} (h : ∀ n, P n → Q n) {v : JsonTree S N} :
    v.EveryNumber P → v.EveryNumber Q := by
  induction v using tree_induction with
  | null | bool | str => exact id
  | num n => exact h n
  | arr vs ih =>
    simp only [EveryNumber, everyNumberItems_iff]
    exact fun hp v hv => ih v hv (hp v hv)
  | obj ms ih =>
    simp only [EveryNumber, everyNumberMembers_iff]
    exact fun hp m hm => ih m hm (hp m hm)

theorem everyNumber_map {g : N → M} {P : M → Prop} (v : JsonTree S N) :
    (v.map f g).EveryNumber P ↔ v.EveryNumber (fun n => P (g n)) := by
  induction v using tree_induction with
  | null | bool | str | num => exact Iff.rfl
  | arr vs ih =>
    simp only [map, EveryNumber, everyNumberItems_iff, mapItems_eq, List.forall_mem_map]
    exact forall₂_congr ih
  | obj ms ih =>
    simp only [map, EveryNumber, everyNumberMembers_iff, mapMembers_eq, List.forall_mem_map]
    exact forall₂_congr ih

/-- Two readings of one tree agree exactly when they agree on its numbers. -/
theorem map_eq_map_iff {g h : N → M} (v : JsonTree S N) :
    v.map f g = v.map f h ↔ v.EveryNumber (fun n => g n = h n) := by
  induction v using tree_induction with
  | null | bool | str => exact iff_of_true rfl trivial
  | num n => simp only [map, EveryNumber, JsonTree.num.injEq]
  | arr vs ih =>
    simp only [map, EveryNumber, JsonTree.arr.injEq, everyNumberItems_iff, mapItems_eq, List.map_inj_left]
    exact forall₂_congr ih
  | obj ms ih =>
    simp only [map, EveryNumber, JsonTree.obj.injEq, everyNumberMembers_iff, mapMembers_eq, List.map_inj_left,
      Prod.mk.injEq, true_and]
    exact forall₂_congr ih

/-- The text looks at numbers only through their texts. -/
theorem write_congr {str : S → List Char} {num text : N → List Char} {v : JsonTree S N}
    (h : v.EveryNumber (fun n => num n = text n)) : v.write str num = v.write str text := by
  have hmap := (map_eq_map_iff (f := id) v).2 h
  have hwrite : ∀ t : N → List Char, (v.map id t).write str id = v.write str t := fun t => write_map v
  rw [← hwrite num, ← hwrite text, hmap]

theorem everyNumber_sorted {P : N → Prop} (v : JsonTree S N) : (sorted o v).EveryNumber P ↔ v.EveryNumber P := by
  induction v using tree_induction with
  | null | bool | str | num => exact Iff.rfl
  | arr vs ih =>
    simp only [sorted, EveryNumber, everyNumberItems_iff, sortedItems_eq, List.forall_mem_map]
    exact forall₂_congr ih
  | obj ms ih =>
    simp only [sorted, EveryNumber, everyNumberMembers_iff, List.mem_mergeSort, sortedMembers_eq, List.forall_mem_map]
    exact forall₂_congr ih

end EveryNumber

end JsonTree
end Lib
