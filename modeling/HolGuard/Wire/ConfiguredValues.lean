import HolGuard.Lib.Framing
import HolGuard.Lib.KeyMap
import HolGuard.Lib.Unicode
import HolGuard.Lib.Checks
/-!
# Digests of configured environments and headers

`configured_values_hash` of `context_digest.rs`: pairs of keys and values are stripped and collected, the last pair of a
key winning, and the selected keys are hashed in order, each framed by its length and followed by its state.

`configured_digests_separate`: two digests of one domain agree exactly when the two inputs select the same keys and
agree on them, and digests of the two domains never agree.
-/
namespace Guard.Wire

open Lib

def configuredEnvHashDomain : Bytes := utf8 "hol.guard.configured-environment:v1" ++ [0]

def configuredHeaderHashDomain : Bytes := utf8 "hol.guard.configured-headers:v1" ++ [0]

def errValues : String := "native_context_values_invalid"

section

variable {N : Type}

/-- One item of the list of pairs: a key that is blank after stripping is passed over. -/
def configuredPair : JsonTree String N → Except String (Option (String × JsonTree String N))
  | .arr (.str rawKey :: entry :: rest) =>
    if rest.length ≠ 0 then .error errValues
    else if pythonStrip rawKey = "" then .ok none
    else .ok (some (pythonStrip rawKey, entry))
  | _ => .error errValues

/-- The loop over the pairs, into the map of what was there before. -/
def normalizePairs : List (JsonTree String N) → KeyMap String (JsonTree String N) →
    Except String (KeyMap String (JsonTree String N))
  | [], normalized => .ok normalized
  | item :: items, normalized =>
    match configuredPair item with
    | .error e => .error e
    | .ok none => normalizePairs items normalized
    | .ok (some (key, entry)) => normalizePairs items (normalized.insert key entry)

/-- The normalised values; `isZero` is `number.as_f64() == Some(0.0)`. -/
def normalizedValues (isZero : N → Bool) : Option (JsonTree String N) →
    Except String (KeyMap String (JsonTree String N))
  | none | some .null | some (.bool false) => .ok .empty
  | some (.num n) => if isZero n then .ok .empty else .error errValues
  | some (.str s) => if s = "" then .ok .empty else .error errValues
  | some (.arr items) => normalizePairs items .empty
  | some _ => .error errValues

/-- The keys that are hashed, before they are sorted. -/
def selectedKeys (normalized : KeyMap String (JsonTree String N)) : Option (List String) → List String
  | none => normalized.pairs.map Prod.fst
  | some configured => (configured.map pythonStrip).filter (fun key => key != "")

/-- The loop that feeds the hasher. -/
def hashKeys (normalized : KeyMap String (JsonTree String N)) : List String → Bytes → Except String Bytes
  | [], fed => .ok fed
  | key :: keys, fed =>
    let fed := fed ++ lengthFramed (utf8 key)
    match normalized.get? key with
    | none => hashKeys normalized keys (fed ++ [0])
    | some (.str text) => hashKeys normalized keys (fed ++ 1 :: lengthFramed (utf8 text))
    | some _ => .error errValues

def configuredValuesHash (isZero : N → Bool) (sha256 : Bytes → Bytes) (values : Option (JsonTree String N))
    (configuredKeys : Option (List String)) (domain : Bytes) : Except String String :=
  match normalizedValues isZero values with
  | .error e => .error e
  | .ok normalized =>
    (hashKeys normalized (sortedDistinct (selectedKeys normalized configuredKeys)) domain).map
      (fun fed => hexEncode (sha256 fed))

/-! ## What a digest stands for -/

/-- The pair an item is, its key as it was written. -/
def rawPair : JsonTree String N → Option (String × JsonTree String N)
  | .arr [.str rawKey, entry] => some (rawKey, entry)
  | _ => none

def rawPairs : Option (JsonTree String N) → List (String × JsonTree String N)
  | some (.arr items) => items.filterMap rawPair
  | _ => []

/-- The value of the last pair whose stripped key is `key`. -/
def lastValue (values : Option (JsonTree String N)) (key : String) : Option (JsonTree String N) :=
  ((rawPairs values).reverse.find? (fun p => pythonStrip p.1 = key)).map Prod.snd

/-- The stripped key is not blank, and one of the configured keys or, without these, of the pairs. -/
def Selects (values : Option (JsonTree String N)) (configuredKeys : Option (List String)) (key : String) : Prop :=
  key ≠ "" ∧ ∃ raw, pythonStrip raw = key ∧ raw ∈ configuredKeys.getD ((rawPairs values).map Prod.fst)

/-- No string of the input is longer than a length of 64 bits can say. -/
structure Addressable (values : Option (JsonTree String N)) (configuredKeys : Option (List String)) : Prop where
  keys : ∀ p ∈ rawPairs values, p.1.utf8ByteSize < 2 ^ 64
  texts : ∀ p ∈ rawPairs values, ∀ text, p.2 = .str text → text.utf8ByteSize < 2 ^ 64
  configured : ∀ keys ∈ configuredKeys, ∀ key ∈ keys, key.utf8ByteSize < 2 ^ 64

def itemKey (item : JsonTree String N) : Option String := (rawPair item).map (fun p => pythonStrip p.1)

end

/-! ## Normalised pairs -/

section

variable {N : Type} {isZero : N → Bool}

/-- An item is accepted exactly when it is a pair with a text for a key. -/
theorem configuredPair_eq_ok {item : JsonTree String N} {answer : Option (String × JsonTree String N)}
    (h : configuredPair item = .ok answer) : ∃ raw entry, item = .arr [.str raw, entry] ∧
      answer = if pythonStrip raw = "" then none else some (pythonStrip raw, entry) := by
  unfold configuredPair at h
  split at h
  · rename_i raw entry rest
    rw [Lib.ite_error_eq_ok, not_not] at h
    obtain ⟨hrest, h⟩ := h
    rw [List.length_eq_zero_iff] at hrest
    subst hrest
    refine ⟨raw, entry, rfl, ?_⟩
    by_cases hblank : pythonStrip raw = ""
    · rw [if_pos hblank] at h ⊢
      exact (Except.ok.inj h).symm
    · rw [if_neg hblank] at h ⊢
      exact (Except.ok.inj h).symm
  · cases h

variable {key : String}

/-- The pairs of a list are those of the rest and, before them, the first. -/
theorem lastValue_cons (raw : String) (entry : JsonTree String N) (items : List (JsonTree String N)) (key : String) :
    lastValue (some (.arr (.arr [.str raw, entry] :: items))) key =
      (lastValue (some (.arr items)) key).or (if pythonStrip raw = key then some entry else none) := by
  simp only [lastValue, rawPairs]
  rw [List.filterMap_cons]
  simp only [rawPair, List.reverse_cons, List.find?_append]
  rw [Option.map_or]
  congr 1
  by_cases hraw : pythonStrip raw = key <;> simp [hraw]

/-- What the loop over the pairs leaves under a key: the last pair of the key, else what was there; nothing is put under
the blank key. -/
theorem get?_normalizePairs {items : List (JsonTree String N)} {before after : KeyMap String (JsonTree String N)}
    (h : normalizePairs items before = .ok after) (key : String) : after.get? key =
      if key = "" then before.get? key else (lastValue (some (.arr items)) key).or (before.get? key) := by
  fun_induction normalizePairs items before with
  | case1 before =>
    cases h
    exact (ite_self _).symm
  | case2 => cases h
  | case3 before item items hpair ih =>
    obtain ⟨raw, entry, rfl, hblank⟩ := configuredPair_eq_ok hpair
    have hblank : pythonStrip raw = "" := by simpa using hblank.symm
    rw [ih h, lastValue_cons, hblank]
    by_cases hkey : key = ""
    · rw [if_pos hkey, if_pos hkey]
    · simp [hkey, Ne.symm hkey]
  | case4 before item items k entry hpair ih =>
    obtain ⟨raw, _, rfl, hsome⟩ := configuredPair_eq_ok hpair
    rw [eq_comm, Option.ite_none_left_eq_some, Option.some.injEq, Prod.mk.injEq] at hsome
    obtain ⟨hblank, rfl, rfl⟩ := hsome
    rw [ih h, lastValue_cons, KeyMap.get?_insert]
    by_cases hkey : key = ""
    · simp [hkey, Ne.symm hblank]
    · rw [if_neg hkey, if_neg hkey, Option.or_assoc]
      congr 1
      by_cases hraw : pythonStrip raw = key
      · simp [hraw]
      · simp [hraw, Ne.symm hraw]

variable {values : Option (JsonTree String N)} {m : KeyMap String (JsonTree String N)}

theorem get?_normalizedValues (h : normalizedValues isZero values = .ok m) (key : String) :
    m.get? key = if key = "" then none else lastValue values key := by
  -- every input but a list of pairs is normalised to nothing
  have hempty : m = .empty → rawPairs values = [] → m.get? key = if key = "" then none else lastValue values key := by
    rintro rfl hpairs
    simp [lastValue, hpairs]
  unfold normalizedValues at h
  repeat' split at h
  all_goals first
    | exact hempty (Except.ok.inj h).symm rfl
    | rw [get?_normalizePairs h, KeyMap.get?_empty, Option.or_none]
    | cases h

theorem lastValue_isSome :
    (∃ a, lastValue values key = some a) ↔ ∃ raw ∈ (rawPairs values).map Prod.fst, pythonStrip raw = key := by
  rw [← Option.isSome_iff_exists, lastValue, Option.isSome_map, List.find?_isSome]
  simp

theorem mem_selectedKeys (h : normalizedValues isZero values = .ok m) {configuredKeys : Option (List String)} :
    key ∈ selectedKeys m configuredKeys ↔ Selects values configuredKeys key := by
  unfold Selects
  cases configuredKeys with
  | none =>
    rw [selectedKeys, KeyMap.mem_keys_iff, get?_normalizedValues h]
    by_cases hkey : key = ""
    · simp [hkey]
    · rw [if_neg hkey, lastValue_isSome]
      simp only [and_comm, ne_eq, hkey, not_false_eq_true, true_and, Option.getD_none]
  | some configured =>
    rw [selectedKeys, List.mem_filter, bne_iff_ne, and_comm, List.mem_map]
    exact and_congr_right (fun _ => exists_congr (fun raw => and_comm))

/-! ## The bytes that are hashed -/

def textOf : Option (JsonTree String N) → Option String
  | some (.str text) => some text
  | _ => none

/-- A key and its state as they are framed. -/
def entryBytes (e : String × Option String) : Bytes :=
  lengthFramed (utf8 e.1) ++ e.2.elim [0] (fun text => 1 :: lengthFramed (utf8 text))

/-- Absent, or present with a text. -/
def Readable (v : Option (JsonTree String N)) : Prop := v = none ∨ ∃ text, v = some (.str text)

theorem textOf_inj {v w : Option (JsonTree String N)} (hv : Readable v) (hw : Readable w) (h : textOf v = textOf w) :
    v = w := by
  rcases hv with rfl | ⟨s, rfl⟩ <;> rcases hw with rfl | ⟨t, rfl⟩ <;> simp_all [textOf]

theorem hashKeys_eq_ok : ∀ {keys : List String} {fed out : Bytes},
    hashKeys m keys fed = .ok out ↔ (∀ key ∈ keys, Readable (m.get? key)) ∧
      out = fed ++ keys.flatMap (fun key => entryBytes (key, textOf (m.get? key)))
  | [], fed, out => by
    simp only [hashKeys, Except.ok.injEq, List.not_mem_nil, false_implies, implies_true, true_and, List.flatMap_nil,
      List.append_nil]
    exact eq_comm
  | key :: keys, fed, out => by
    unfold hashKeys
    simp only [List.mem_cons, forall_eq_or_imp, List.flatMap_cons]
    cases hget : m.get? key with
    | none =>
      simp only [hashKeys_eq_ok, Readable, true_or, true_and, entryBytes, textOf, Option.elim_none, List.append_assoc]
    | some v =>
      cases v with
      | str text =>
        simp only [hashKeys_eq_ok, Readable, entryBytes, textOf, Option.elim_some, List.append_assoc, reduceCtorEq,
          false_or, Option.some.injEq, JsonTree.str.injEq, exists_eq', true_and]
      | _ => simp [Readable]

theorem hashKeys_congr {m' : KeyMap String (JsonTree String N)} : ∀ {keys : List String},
    (∀ key ∈ keys, m.get? key = m'.get? key) → ∀ fed, hashKeys m keys fed = hashKeys m' keys fed
  | [], _, _ => rfl
  | key :: keys, h, fed => by
    obtain ⟨hkey, hrest⟩ := List.forall_mem_cons.1 h
    unfold hashKeys
    simp only [hkey, hashKeys_congr hrest]

theorem selfDelimiting_text : SelfDelimiting (fun s : String => s.utf8ByteSize < 2 ^ 64)
    (fun s => lengthFramed (utf8 s)) := by
  intro s t hs ht r r' h
  obtain ⟨htext, hrest⟩ := selfDelimiting_lengthFramed (utf8 s) (utf8 t) hs ht r r' h
  exact ⟨utf8_injective htext, hrest⟩

theorem selfDelimiting_entryBytes : SelfDelimiting
    (fun e : String × Option String => e.1.utf8ByteSize < 2 ^ 64 ∧ ∀ t ∈ e.2, t.utf8ByteSize < 2 ^ 64) entryBytes :=
  selfDelimiting_text.seq (selfDelimiting_text.option (by decide))

theorem entryBytes_ne_nil (e : String × Option String) : entryBytes e ≠ [] := by
  intro h
  have hlength := congrArg List.length h
  simp [entryBytes, lengthFramed, length_beBytes] at hlength

/-! ## When an input has a digest -/

theorem configuredPair_error {item : JsonTree String N} {e : String} (h : configuredPair item = .error e) :
    e = errValues := by
  unfold configuredPair at h
  repeat' split at h
  all_goals cases h <;> rfl

theorem normalizePairs_error {items : List (JsonTree String N)} {before : KeyMap String (JsonTree String N)}
    {e : String} (h : normalizePairs items before = .error e) : e = errValues := by
  fun_induction normalizePairs items before with
  | case1 => cases h
  | case2 _ _ _ _ hpair =>
    cases h
    exact configuredPair_error hpair
  | case3 _ _ _ _ ih | case4 _ _ _ _ _ _ ih => exact ih h

theorem normalizedValues_error {e : String} (h : normalizedValues isZero values = .error e) :
    e = errValues := by
  unfold normalizedValues at h
  split at h
  all_goals first
    | exact normalizePairs_error h
    | (repeat' split at h) <;> cases h <;> rfl

/-- Pairs are normalised exactly when each of them is a pair. -/
theorem normalizePairs_ok_iff : ∀ {items : List (JsonTree String N)} {before : KeyMap String (JsonTree String N)},
    (∃ m, normalizePairs items before = .ok m) ↔ ∀ item ∈ items, ∃ answer, configuredPair item = .ok answer
  | [], before => by simp [normalizePairs]
  | item :: items, before => by
    unfold normalizePairs
    rw [List.forall_mem_cons]
    cases hpair : configuredPair item with
    | error e => simp
    | ok answer =>
      cases answer with
      | none => simpa using normalizePairs_ok_iff
      | some p => simpa using normalizePairs_ok_iff

variable {sha256 : Bytes → Bytes} {values values' : Option (JsonTree String N)} {keys keys' : Option (List String)}
  {domain : Bytes}

def entriesOf (values : Option (JsonTree String N)) (m : KeyMap String (JsonTree String N))
    (keys : Option (List String)) : List (String × Option String) :=
  (sortedDistinct (selectedKeys m keys)).map (fun key => (key, textOf (lastValue values key)))

/-- A digest is that of the domain and of the entries, framed one after the other. -/
theorem configuredValuesHash_eq_ok {d : String} (h : configuredValuesHash isZero sha256 values keys domain = .ok d) :
    ∃ m, normalizedValues isZero values = .ok m ∧ (∀ key, Selects values keys key → Readable (lastValue values key)) ∧
      d = hexEncode (sha256 (domain ++ (entriesOf values m keys).flatMap entryBytes)) := by
  unfold configuredValuesHash at h
  cases hm : normalizedValues isZero values with
  | error e => simp [hm] at h
  | ok m =>
    simp only [hm] at h
    obtain ⟨fed, hfed, rfl⟩ := Lib.map_eq_ok.1 h
    obtain ⟨hread, rfl⟩ := hashKeys_eq_ok.1 hfed
    have hget : ∀ key, key ≠ "" → m.get? key = lastValue values key := fun key hkey =>
      (get?_normalizedValues hm key).trans (if_neg hkey)
    have hselected : ∀ key, key ∈ sortedDistinct (selectedKeys m keys) ↔ Selects values keys key := by
      intro key
      rw [mem_sortedDistinct, mem_selectedKeys hm]
    refine ⟨m, rfl, ?_, ?_⟩
    · intro key hkey
      rw [← hget key hkey.1]
      exact hread key ((hselected key).2 hkey)
    · rw [entriesOf, List.flatMap_map]
      congr 3
      refine List.flatMap_congr (fun key hkey => ?_)
      rw [hget key ((hselected key).1 hkey).1]

/-- Inputs that are normalised alike, select the same keys and agree on them have one answer. -/
theorem configuredValuesHash_congr
    (hok : (∃ m, normalizedValues isZero values = .ok m) ↔ ∃ m, normalizedValues isZero values' = .ok m)
    (hkeys : ∀ key, Selects values keys key ↔ Selects values' keys' key)
    (hlast : ∀ key, Selects values keys key → lastValue values key = lastValue values' key) :
    configuredValuesHash isZero sha256 values keys domain =
      configuredValuesHash isZero sha256 values' keys' domain := by
  unfold configuredValuesHash
  cases hm : normalizedValues isZero values with
  | error e =>
    cases hm' : normalizedValues isZero values' with
    | error e' => rw [normalizedValues_error hm, normalizedValues_error hm']
    | ok m' => exact absurd (hok.2 ⟨m', hm'⟩) (by simp [hm])
  | ok m =>
    cases hm' : normalizedValues isZero values' with
    | error e' => exact absurd (hok.1 ⟨m, hm⟩) (by simp [hm'])
    | ok m' =>
      have hsame : sortedDistinct (selectedKeys m keys) = sortedDistinct (selectedKeys m' keys') :=
        sortedDistinct_congr (fun key => by rw [mem_selectedKeys hm, mem_selectedKeys hm', hkeys])
      have hget : ∀ key ∈ sortedDistinct (selectedKeys m' keys'), m.get? key = m'.get? key := by
        intro key hkey
        rw [mem_sortedDistinct, mem_selectedKeys hm'] at hkey
        rw [get?_normalizedValues hm, get?_normalizedValues hm', hlast key ((hkeys key).2 hkey)]
      simp only [hsame]
      congr 1
      exact hashKeys_congr hget domain

/-! ## Sizes -/

theorem utf8ByteSize_pythonStrip_le (s : String) : (pythonStrip s).utf8ByteSize ≤ s.utf8ByteSize := by
  have hsub : ((s.toList.dropWhile isPythonSpace).reverse.dropWhile isPythonSpace).reverse.Sublist s.toList := by
    have hright := (List.dropWhile_sublist (l := (s.toList.dropWhile isPythonSpace).reverse) isPythonSpace).reverse
    rw [List.reverse_reverse] at hright
    exact hright.trans (List.dropWhile_sublist _)
  have hsize : s.utf8ByteSize = byteLength s.toList := by
    rw [← utf8ByteSize_ofList, String.ofList_toList]
  rw [pythonStrip, utf8ByteSize_ofList, hsize]
  exact (hsub.map Char.utf8Size).sum_le_sum (fun _ _ => Nat.zero_le _)

theorem utf8ByteSize_of_selects (ha : Addressable values keys) (hkey : Selects values keys key) :
    key.utf8ByteSize < 2 ^ 64 := by
  obtain ⟨-, raw, rfl, hraw⟩ := hkey
  refine Nat.lt_of_le_of_lt (utf8ByteSize_pythonStrip_le raw) ?_
  cases keys with
  | none =>
    obtain ⟨p, hp, rfl⟩ := List.mem_map.1 hraw
    exact ha.keys p hp
  | some configured => exact ha.configured configured rfl raw hraw

theorem utf8ByteSize_of_textOf (ha : Addressable values keys) {text : String}
    (htext : textOf (lastValue values key) = some text) : text.utf8ByteSize < 2 ^ 64 := by
  cases hlast : lastValue values key with
  | none => simp [hlast, textOf] at htext
  | some v =>
    obtain ⟨p, hp, rfl⟩ := Option.map_eq_some_iff.1 hlast
    have hmem : p ∈ rawPairs values := List.mem_reverse.1 (List.mem_of_find?_eq_some hp)
    refine ha.texts p hmem text ?_
    rw [hlast] at htext
    unfold textOf at htext
    split at htext
    · rename_i s hs
      cases htext
      exact Option.some.inj hs
    · cases htext

/-! ## Reordering -/

theorem rawPairs_filter (items : List (JsonTree String N)) (key : String) :
    (rawPairs (some (.arr items))).filter (fun p => pythonStrip p.1 = key) =
      (items.filter (fun item => itemKey item = some key)).filterMap rawPair := by
  rw [rawPairs, List.filter_filterMap, List.filterMap_filter]
  refine List.filterMap_congr (fun item _ => ?_)
  unfold itemKey
  cases rawPair item with
  | none => simp
  | some p => by_cases hp : pythonStrip p.1 = key <;> simp [hp]

theorem lastValue_arr (items : List (JsonTree String N)) (key : String) :
    lastValue (some (.arr items)) key =
      ((items.filter (fun item => itemKey item = some key)).filterMap rawPair).reverse.head?.map Prod.snd := by
  rw [lastValue, ← List.head?_filter, List.filter_reverse, rawPairs_filter]

/-! ## The main result -/

/-- **Configured digests separate configurations.**  With a hash that never collides, digests of one domain agree
exactly when the inputs select the same keys and agree on them, the order of pairs with different keys and the order and
repeats of configured keys do not matter, and the two domains have no digest in common. -/
theorem configured_digests_separate (isZero : N → Bool) (hsha : Function.Injective sha256) :
    (∀ values values' keys keys' domain d d', Addressable values keys → Addressable values' keys' →
      configuredValuesHash isZero sha256 values keys domain = .ok d →
      configuredValuesHash isZero sha256 values' keys' domain = .ok d' →
      (d = d' ↔ (∀ key, Selects values keys key ↔ Selects values' keys' key) ∧
        ∀ key, Selects values keys key → lastValue values key = lastValue values' key)) ∧
    (∀ items items' keys domain, items.Perm items' →
      (∀ key, items.filter (fun item => itemKey item = some key) =
        items'.filter (fun item => itemKey item = some key)) →
      configuredValuesHash isZero sha256 (some (.arr items)) keys domain =
        configuredValuesHash isZero sha256 (some (.arr items')) keys domain) ∧
    (∀ values configured configured' domain, (∀ key, key ∈ configured ↔ key ∈ configured') →
      configuredValuesHash isZero sha256 values (some configured) domain =
        configuredValuesHash isZero sha256 values (some configured') domain) ∧
    ∀ values values' keys keys' d d', configuredValuesHash isZero sha256 values keys configuredEnvHashDomain = .ok d →
      configuredValuesHash isZero sha256 values' keys' configuredHeaderHashDomain = .ok d' → d ≠ d' := by
  refine ⟨?_, ?_, ?_, ?_⟩
  · intro values values' keys keys' domain d d' ha ha' h h'
    obtain ⟨m, hm, hread, rfl⟩ := configuredValuesHash_eq_ok h
    obtain ⟨m', hm', hread', rfl⟩ := configuredValuesHash_eq_ok h'
    have hbounds : ∀ {values keys m}, normalizedValues isZero values = .ok m → Addressable values keys →
        ∀ e ∈ entriesOf values m keys, e.1.utf8ByteSize < 2 ^ 64 ∧ ∀ t ∈ e.2, t.utf8ByteSize < 2 ^ 64 := by
      intro values keys m hm ha e he
      obtain ⟨key, hkey, rfl⟩ := List.mem_map.1 he
      rw [mem_sortedDistinct, mem_selectedKeys hm] at hkey
      exact ⟨utf8ByteSize_of_selects ha hkey, fun t ht => utf8ByteSize_of_textOf ha ht⟩
    have hmem : ∀ {values keys m}, normalizedValues isZero values = .ok m → ∀ e,
        e ∈ entriesOf values m keys ↔ Selects values keys e.1 ∧ e.2 = textOf (lastValue values e.1) := by
      rintro values keys m hm ⟨key, state⟩
      simp only [entriesOf, List.mem_map, mem_sortedDistinct, mem_selectedKeys hm, Prod.mk.injEq]
      constructor
      · rintro ⟨key', hkey', rfl, rfl⟩
        exact ⟨hkey', rfl⟩
      · rintro ⟨hkey, rfl⟩
        exact ⟨key, hkey, rfl, rfl⟩
    constructor
    · intro hd
      -- equal digests, equal bytes, equal entries
      have hentries := selfDelimiting_entryBytes.flatMap_inj entryBytes_ne_nil (hbounds hm ha) (hbounds hm' ha')
        (List.append_cancel_left (hsha (hexEncode_injective hd)))
      have hkeys : ∀ key, Selects values keys key →
          Selects values' keys' key ∧ textOf (lastValue values key) = textOf (lastValue values' key) := by
        intro key hkey
        exact (hmem hm' (key, _)).1 (hentries ▸ (hmem hm (key, _)).2 ⟨hkey, rfl⟩)
      refine ⟨fun key => ⟨fun hkey => (hkeys key hkey).1, fun hkey => ?_⟩, fun key hkey => ?_⟩
      · exact ((hmem hm (key, _)).1 (hentries ▸ (hmem hm' (key, textOf (lastValue values' key))).2 ⟨hkey, rfl⟩)).1
      · obtain ⟨hkey', htext⟩ := hkeys key hkey
        exact textOf_inj (hread key hkey) (hread' key hkey') htext
    · rintro ⟨hkeys, hlast⟩
      have hsame : configuredValuesHash isZero sha256 values keys domain =
          configuredValuesHash isZero sha256 values' keys' domain :=
        configuredValuesHash_congr ⟨fun _ => ⟨m', hm'⟩, fun _ => ⟨m, hm⟩⟩ hkeys hlast
      rw [h, h'] at hsame
      exact Except.ok.inj hsame
  · intro items items' keys domain hperm hfilter
    have hlast : ∀ key, lastValue (some (.arr items)) key = lastValue (some (.arr items')) key := by
      intro key
      rw [lastValue_arr, lastValue_arr, hfilter key]
    have hpairs : ∀ raw, raw ∈ (rawPairs (some (.arr items))).map Prod.fst ↔
        raw ∈ (rawPairs (some (.arr items'))).map Prod.fst := fun raw => ((hperm.filterMap _).map _).mem_iff
    refine configuredValuesHash_congr ?_ (fun key => ?_) (fun key _ => hlast key)
    · unfold normalizedValues
      rw [normalizePairs_ok_iff, normalizePairs_ok_iff]
      exact forall_congr' (fun item => by rw [hperm.mem_iff])
    · unfold Selects
      cases keys with
      | none => simp only [Option.getD_none, hpairs]
      | some configured => rfl
  · intro values configured configured' domain hconfigured
    refine configuredValuesHash_congr Iff.rfl (fun key => ?_) (fun _ _ => rfl)
    simp only [Selects, Option.getD_some, hconfigured]
  · rintro values values' keys keys' d d' h h' rfl
    obtain ⟨m, -, -, hd⟩ := configuredValuesHash_eq_ok h
    obtain ⟨m', -, -, hd'⟩ := configuredValuesHash_eq_ok h'
    -- the domains differ at the byte after their common start
    have hbytes := congrArg (fun bytes : Bytes => bytes[21]?) (hsha (hexEncode_injective (hd.symm.trans hd')))
    have henv : configuredEnvHashDomain.length = 36 := by decide +kernel
    have hheader : configuredHeaderHashDomain.length = 32 := by decide +kernel
    have henv21 : configuredEnvHashDomain[21]? = some 101 := by decide +kernel
    have hheader21 : configuredHeaderHashDomain[21]? = some 104 := by decide +kernel
    rw [List.getElem?_append_left (by omega), List.getElem?_append_left (by omega), henv21, hheader21] at hbytes
    exact absurd hbytes (by decide)

def oneVariable (key value : String) : Option (JsonTree String Empty) := some (.arr [.arr [.str key, .str value]])

theorem addressable_oneVariable {value : String} (hkey : key.utf8ByteSize < 2 ^ 64)
    (hvalue : value.utf8ByteSize < 2 ^ 64) : Addressable (oneVariable key value) none where
  keys p hp := by
    obtain rfl := List.mem_singleton.1 hp
    exact hkey
  texts p hp text htext := by
    obtain rfl := List.mem_singleton.1 hp
    cases htext
    exact hvalue
  configured keys hkeys := by cases hkeys

theorem configuredValuesHash_oneVariable (value : String) :
    configuredValuesHash (fun _ => false) id (oneVariable "A" value) none [] =
      .ok (hexEncode (lengthFramed (utf8 "A") ++ 1 :: lengthFramed (utf8 value))) := by
  have hstrip : pythonStrip "A" = "A" := by decide +kernel
  have hsorted : sortedDistinct ["A"] = ["A"] := by simp [sortedDistinct, dedupAdjacent]
  have hpairs : normalizedValues (fun _ => false) (oneVariable "A" value) =
      .ok (KeyMap.empty.insert "A" (.str value)) := by
    simp [normalizedValues, oneVariable, normalizePairs, configuredPair, hstrip]
  have hkeys : selectedKeys (KeyMap.empty.insert "A" (JsonTree.str (N := Empty) value)) none = ["A"] := rfl
  simp only [configuredValuesHash, hpairs, hkeys, hsorted, hashKeys, KeyMap.get?_insert, if_true]
  rfl

/-- The identity never collides, and under it a changed value changes the digest. -/
theorem changed_value_changes_digest :
    ∃ d d', configuredValuesHash (fun _ => false) id (oneVariable "A" "1") none [] = .ok d ∧
      configuredValuesHash (fun _ => false) id (oneVariable "A" "2") none [] = .ok d' ∧ d ≠ d' := by
  refine ⟨_, _, configuredValuesHash_oneVariable "1", configuredValuesHash_oneVariable "2", ?_⟩
  intro h
  have hiff := (configured_digests_separate (fun _ : Empty => false) Function.injective_id).1 (oneVariable "A" "1")
    (oneVariable "A" "2") none none [] _ _ (addressable_oneVariable (by decide) (by decide))
    (addressable_oneVariable (by decide) (by decide)) (configuredValuesHash_oneVariable "1")
    (configuredValuesHash_oneVariable "2")
  have hlast := (hiff.1 h).2 "A" ⟨by decide, "A", by decide +kernel, List.mem_singleton_self _⟩
  have hstrip : pythonStrip "A" = "A" := by decide +kernel
  simp [lastValue, rawPairs, rawPair, oneVariable, hstrip] at hlast

end
end Guard.Wire
