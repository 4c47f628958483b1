import HolGuard.Wire.ContextJson
/-!
# The context writer against CPython

The native writer and CPython's are compared on the texts both runtimes read.  They write the same bytes exactly when
every integer of the text is one the native reader keeps as an integer (`context_json_matches_python`): an integer past
64 bits and `-0` are floats to the resident, and floats have a point or an exponent in their text.
-/
namespace Guard.Wire

open Lib JsonReader

/-! ## The text of a float -/

section

variable {B : Binary64}

/-- **Every float's text is a numeral with a point or an exponent.** -/
theorem pythonFloatRepr_eq (hB : B.Lawful) (f : B.F) : ∃ n : Numeral, n.Grammatical ∧
    (n.fraction.isSome = true ∨ n.exponent.isSome = true) ∧ pythonFloatRepr B f = n.text := by
  have hd := hB.digits f
  have hzero := hB.exponent_zero f
  unfold pythonFloatRepr
  generalize B.digits f = ds at hd hzero ⊢
  generalize B.exponent f = x at hzero ⊢
  generalize B.negative f = negative
  generalize hsign : (if negative = true then ['-'] else []) = sign
  have hpow := integerDigits_toDigits (x + 1 - 1).natAbs
  have hexp := someDigits_append hpow.someDigits
    (fun c hc => isDigit_of_mem_zeros (n := 2 - (Nat.toDigits 10 (x + 1 - 1).natAbs).length) hc)
  have hpoint : ∀ {ds fs : List Char}, IntegerDigits ds → SomeDigits fs →
      Numeral.Grammatical ⟨negative, ds, some fs, none⟩ := fun hds hfs =>
        ⟨hds, fun _ h => Option.some.inj h ▸ hfs, fun _ h => by cases h⟩
  simp only
  split
  · split
    · refine ⟨⟨negative, ['0'], some (List.replicate (-(x + 1)).toNat '0' ++ ds), none⟩, ?_, .inl rfl,
        by simp [Numeral.text, hsign]⟩
      exact hpoint (IntegerDigits.singleton (by decide))
        (someDigits_append hd.someDigits (fun c hc => isDigit_of_mem_zeros hc))
    split
    · refine ⟨⟨negative, ds ++ List.replicate (x + 1 - ds.length).toNat '0', some ['0'], none⟩, ?_, .inl rfl,
        by simp [Numeral.text, hsign]⟩
      refine hpoint ⟨?_, ?_, ?_⟩ (IntegerDigits.singleton (by decide)).someDigits
      · exact fun h => hd.ne_nil (List.append_eq_nil_iff.1 h).1
      · exact fun c hc => (List.mem_append.1 hc).elim (hd.digit c) (fun h => isDigit_of_mem_zeros h)
      · intro hlen
        rw [List.head?_append_of_ne_nil _ hd.ne_nil]
        intro hhead
        -- zero has no digit but its own, at the units
        have hx := hzero hhead
        have hone : ds.length ≤ 1 := by
          by_contra hgt
          exact hd.leading (by omega) hhead
        rw [List.length_append, List.length_replicate] at hlen
        have := List.length_pos_iff.2 hd.ne_nil
        omega
    · refine ⟨⟨negative, ds.take (x + 1).toNat, some (ds.drop (x + 1).toNat), none⟩, ?_, .inl rfl,
        by simp [Numeral.text, hsign]⟩
      exact hpoint (hd.take (by omega) (by omega)) (someDigits_drop hd (by omega))
  · have hexponent : ∀ {ds : List Char} {q : Option (List Char)}, IntegerDigits ds →
        (∀ fs ∈ q, SomeDigits fs) → Numeral.Grammatical ⟨negative, ds, q,
          some ((if x + 1 - 1 < 0 then '-' else '+') ::
            (List.replicate (2 - (Nat.toDigits 10 (x + 1 - 1).natAbs).length) '0' ++
              Nat.toDigits 10 (x + 1 - 1).natAbs))⟩ := by
      intro ds q hds hq
      refine ⟨hds, hq, fun es hes => ⟨_, _, (Option.some.inj hes).symm, ?_, hexp⟩⟩
      split
      · exact .inr rfl
      · exact .inl rfl
    split
    · rename_i hlen
      refine ⟨_, hexponent (q := some (ds.drop 1)) (hd.take (k := 1) (by omega) hlen) ?_, .inl rfl,
        by simp [Numeral.text, hsign]⟩
      exact fun _ h => Option.some.inj h ▸ someDigits_drop hd hlen
    · exact ⟨_, hexponent (q := none) hd (fun _ h => by cases h), .inr rfl, by simp [Numeral.text, hsign]⟩

/-! ## Reading the two texts back -/

theorem contextNumberSpelling_head (hB : B.Lawful) (n : Number B.F) :
    ∃ c t, contextNumberSpelling B n = c :: t ∧ (c = '-' ∨ c.isDigit = true) := by
  cases n with
  | int i => exact intText_head i.val
  | float f =>
    obtain ⟨m, hm, -, hrepr⟩ := pythonFloatRepr_eq hB f
    rw [contextNumberSpelling, hrepr]
    exact hm.head

/-- What the text of a number reads back as, and that it is an integer's spelling only for an integer. -/
theorem readNumber_contextNumberSpelling (hB : B.Lawful) (n : Number B.F) : ∃ t : NumberToken,
    (∀ r, EndsNumber r → readNumber (contextNumberSpelling B n ++ r) = some (t, r)) ∧
      ∀ j : Int, t = intToken j → ∃ i, n = .int i ∧ i.val = j := by
  cases n with
  | int i =>
    refine ⟨intToken i.val, fun r hr => readNumber_intText i.val hr, fun j hj => ⟨i, rfl, ?_⟩⟩
    have hnumeral := congrArg Numeral.integer (NumberToken.numeral.inj hj)
    rwa [integer_intToken, integer_intToken] at hnumeral
  | float f =>
    obtain ⟨m, hm, hfloat, hrepr⟩ := pythonFloatRepr_eq hB f
    refine ⟨.numeral m, fun r hr => ?_, fun j hj => ?_⟩
    · rw [contextNumberSpelling, hrepr]
      exact readNumber_text hm hr
    · obtain rfl := NumberToken.numeral.inj hj
      exact absurd hfloat (by simp)

/-- A numeral without fraction and exponent. -/
def IntegerToken (t : NumberToken) : Prop := ∃ n, t = .numeral n ∧ n.fraction = none ∧ n.exponent = none

/-- An integer the native reader keeps as one: in the range of 64 bits and not `-0`. -/
def KeptInteger (t : NumberToken) : Prop := ∃ n, t = .numeral n ∧ n.SpellsNative

/-- The integer an integer's token spells. -/
def tokenInteger : NumberToken → Int
  | .numeral n => n.integer
  | _ => 0

theorem keptInteger_iff {t : NumberToken} {n : Number B.F} (h : nativeNumber B t = some n) :
    KeptInteger t ↔ ∃ i : NativeInt, n = .int i ∧ i.val = tokenInteger t := by
  cases t with
  | numeral m =>
    rw [nativeNumber] at h
    by_cases hm : m.SpellsNative
    · rw [dif_pos hm] at h
      exact iff_of_true ⟨m, rfl, hm⟩ ⟨_, (Option.some.inj h).symm, rfl⟩
    · rw [dif_neg hm] at h
      obtain ⟨f, -, rfl⟩ := Option.map_eq_some_iff.1 h
      refine iff_of_false ?_ ?_
      · rintro ⟨_, hn, hs⟩
        cases hn
        exact hm hs
      · rintro ⟨i, hi, -⟩
        cases hi
  | nan => cases h
  | infinity => cases h
  | negInfinity => cases h

/-- The text CPython writes of an integer value, in terms of what the native reader saw. -/
def pythonText (u : SpelledValue B.F) : List Char :=
  (u.sorted KeyOrder.bytes).write (fun s => asciiString (codePoints s)) (fun p => intText (tokenInteger p.1))

theorem contextText_value (u : SpelledValue B.F) : contextText B u.value =
    (u.sorted KeyOrder.bytes).write (fun s => asciiString (codePoints s)) (fun p => contextNumberSpelling B p.2) := by
  have hsort : (u.map id Prod.snd).sorted KeyOrder.bytes = (u.sorted KeyOrder.bytes).map id Prod.snd :=
    JsonTree.sorted_map (fun _ _ => rfl) u
  rw [contextText, SpelledValue.value, hsort, JsonTree.write_map]
  rfl

theorem scanString_asciiString_codePoints (s : String) (r : List Char) :
    ∃ t, asciiString (codePoints s) ++ r = '"' :: t ∧ scanString t = some (codePoints s, r) :=
  scanString_asciiString (fun _ hn => isScalar_codePoints hn) r

theorem legible_pythonText : Legible (fun s => asciiString (codePoints s))
    (fun p : NumberToken × Number B.F => intText (tokenInteger p.1)) codePoints
    (fun p => intToken (tokenInteger p.1)) where
  str_scan := scanString_asciiString_codePoints
  num_head p := intText_head (tokenInteger p.1)
  num_read p _ hr := readNumber_intText (tokenInteger p.1) hr

/-- **The two texts are one exactly when every integer was kept.** -/
theorem contextText_eq_pythonText (hB : B.Lawful) {u : SpelledValue B.F} (hu : Spelled B u) :
    contextText B u.value = pythonText u ↔ u.raw.EveryNumber KeptInteger := by
  have hsorted : (u.sorted KeyOrder.bytes).EveryNumber (fun p => nativeNumber B p.1 = some p.2) :=
    (JsonTree.everyNumber_sorted u).2 hu
  rw [contextText_value, pythonText, SpelledValue.raw, JsonTree.everyNumber_map,
    ← JsonTree.everyNumber_sorted (o := KeyOrder.bytes) u]
  generalize u.sorted KeyOrder.bytes = s at hsorted ⊢
  constructor
  · intro htext
    choose token hread hinteger using readNumber_contextNumberSpelling hB
    have hlegible : Legible (fun s => asciiString (codePoints s))
        (fun p : NumberToken × Number B.F => contextNumberSpelling B p.2) codePoints (fun p => token p.2) :=
      ⟨scanString_asciiString_codePoints, fun p => contextNumberSpelling_head hB p.2, fun p => hread p.2⟩
    have hmaps := readDocument_write hlegible s
    rw [htext, readDocument_write legible_pythonText s] at hmaps
    have htokens := (JsonTree.map_eq_map_iff s).1 (Option.some.inj hmaps).symm
    refine (htokens.and hsorted).imp (fun p hp => ?_)
    exact (keptInteger_iff hp.2).2 (hinteger p.2 _ hp.1)
  · intro hkept
    refine JsonTree.write_congr ((hkept.and hsorted).imp (fun p hp => ?_))
    obtain ⟨i, hi, hval⟩ := (keptInteger_iff hp.2).1 hp.1
    rw [hi, contextNumberSpelling, hval]

/-! ## What CPython makes of the same text -/

theorem pyNumber_integerToken {t : NumberToken} {n : PyNumber B.F} (ht : IntegerToken t) (h : pyNumber B t = .ok n) :
    pyNumber B t = .ok (.int (tokenInteger t)) := by
  obtain ⟨m, rfl, hf, he⟩ := ht
  rw [pyNumber, hf, he] at h ⊢
  simp only [Option.isSome_none, Bool.or_self, Bool.false_eq_true, if_false] at h ⊢
  exact ite_error_eq_ok.2 ⟨(ite_error_eq_ok.1 h).1, rfl⟩

/-- The Python value of a text the resident accepted. -/
def pythonValue (u : SpelledValue B.F) : PyValue B.F := u.map codePoints (fun p => .int (tokenInteger p.1))

theorem pyLoads_eq {u : SpelledValue B.F} {text : String} {w : PyValue B.F}
    (hread : readDocument text.toList = some u.raw)
    (hdistinct : u.Distinct) (hint : u.raw.EveryNumber IntegerToken) (hw : pyLoads B dictHook text = .ok w) :
    w = pythonValue u := by
  rw [pyLoads, hread] at hw
  have hnumbers : u.EveryNumber (fun p => pyNumber B p.1 = .ok (.int (tokenInteger p.1))) := by
    have hread' := everyNumber_of_pyValue _ _ hw
    rw [SpelledValue.raw, JsonTree.everyNumber_map] at hread' hint
    refine (hint.and hread').imp (fun p hp => ?_)
    obtain ⟨n, hn⟩ := hp.2
    exact pyNumber_integerToken hp.1 hn
  have hval : pyValue B dictHook u.raw = .ok (pythonValue u) :=
    pyValue_map keepsDistinct_dictHook codePoints_injective u hdistinct hnumbers
  exact Except.ok.inj (hw.symm.trans hval)

theorem sorted_pythonValue (u : SpelledValue B.F) :
    (pythonValue u).sorted KeyOrder.codes = pythonValue (u.sorted KeyOrder.bytes) :=
  JsonTree.sorted_map bytes_le_eq u

theorem pyDumps_pythonValue (u : SpelledValue B.F) : pyDumps B asciiString (pythonValue u) = .ok (pythonText u) := by
  have hfinite : (pythonValue u).EveryNumber (PyNumber.Finite B) :=
    (JsonTree.everyNumber_map u).2 (JsonTree.everyNumber_of_forall (fun _ => trivial) u)
  rw [pyDumps, if_pos hfinite, sorted_pythonValue, pythonValue, JsonTree.write_map, pythonText]
  rfl

/-- Equal texts are equal values to Python. -/
theorem pythonText_injective {u w : SpelledValue B.F} (h : pythonText u = pythonText w) :
    (pythonValue u).sorted KeyOrder.codes = (pythonValue w).sorted KeyOrder.codes := by
  have hread := congrArg readDocument h
  rw [pythonText, pythonText, readDocument_write legible_pythonText, readDocument_write legible_pythonText] at hread
  have htokens := congrArg (JsonTree.map id (fun t => PyNumber.int (F := B.F) (tokenInteger t))) (Option.some.inj hread)
  have hval : ∀ x : SpelledValue B.F, JsonTree.map id (fun t => PyNumber.int (F := B.F) (tokenInteger t))
      (x.map codePoints (fun p => intToken (tokenInteger p.1))) = pythonValue x := by
    intro x
    have hinteger : ∀ i : Int, tokenInteger (intToken i) = i := integer_intToken
    rw [JsonTree.map_map, pythonValue]
    simp only [hinteger, id]
  rw [hval, hval] at htokens
  rw [sorted_pythonValue, sorted_pythonValue, htokens]

theorem everyNumber_finite (hB : B.Lawful) {u : SpelledValue B.F} (hu : Spelled B u) :
    u.value.EveryNumber (FiniteNumber B) := by
  rw [SpelledValue.value, JsonTree.everyNumber_sorted, JsonTree.everyNumber_map]
  refine hu.imp (fun p hp => ?_)
  obtain ⟨t, n⟩ := p
  cases n with
  | int i => trivial
  | float f =>
    cases t with
    | numeral m =>
      simp only [nativeNumber] at hp
      split at hp
      · cases hp
      · obtain ⟨g, hg, hfg⟩ := Option.map_eq_some_iff.1 hp
        cases hfg
        exact hB.native_finite m f hg
    | nan => cases hp
    | infinity => cases hp
    | negInfinity => cases hp

theorem writeContextJson_eq_ok (hB : B.Lawful) {u : SpelledValue B.F} (hu : Spelled B u) {out : List Char} :
    writeContextJson B u.value [] = .ok out ↔ out = contextText B u.value ∧ out.length ≤ contextComponentMaxBytes := by
  rw [writeContextJson, appends_value u.value [] out, List.nil_append]
  exact and_iff_right (everyNumber_finite hB hu)

end

/-! ## The digest of canonical material -/

/-- The digest of a value's canonical text, after an optional prefix of the caller's. -/
def canonicalSha256 (sha : Hash) (B : Binary64) (material : NativeValue B.F) (start : Option String) :
    Except String String :=
  (writeContextJson B material []).map (fun out => start.getD "" ++ sha.hex (utf8 (String.ofList out)))

theorem canonicalSha256_inj {sha : Hash} {B : Binary64} (hB : B.Lawful) {u w : SpelledValue B.F} (hu : Spelled B u)
    (hw : Spelled B w) {start : Option String} {digest : String}
    (hsha : sha.Separates (utf8 (String.ofList (contextText B u.value))) (utf8 (String.ofList (contextText B w.value))))
    (h : canonicalSha256 sha B u.value start = .ok digest) (h' : canonicalSha256 sha B w.value start = .ok digest) :
    contextText B u.value = contextText B w.value := by
  obtain ⟨out, hout, hd⟩ := map_eq_ok.1 h
  obtain ⟨out', hout', hd'⟩ := map_eq_ok.1 h'
  obtain ⟨rfl, -⟩ := (writeContextJson_eq_ok hB hu).1 hout
  obtain ⟨rfl, -⟩ := (writeContextJson_eq_ok hB hw).1 hout'
  have hhex := (String.append_right_inj _).1 (hd.trans hd'.symm)
  exact String.ofList_injective (utf8_injective (hsha.eq_of_hex hhex))

theorem keptInteger_integerToken {t : NumberToken} (h : KeptInteger t) : IntegerToken t := by
  obtain ⟨n, rfl, hf, he, -⟩ := h
  exact ⟨n, rfl, hf, he⟩

/-- **On a text both runtimes read, with integers only, the resident writes CPython's bytes exactly when every integer
of the text fits 64 bits and none is `-0`**, the output being within the component limit.  Two such texts with one
digest are then equal values to Python, unless the hash collides on their bytes. -/
theorem context_json_matches_python (sha : Hash) (B : Binary64) (hB : B.Lawful) (text : String) (raw : RawTree)
    (hraw : readDocument text.toList = some raw) (hint : raw.EveryNumber IntegerToken) (v : NativeValue B.F)
    (hv : parse B text = .ok v) (w : PyValue B.F) (hw : pyLoads B dictHook text = .ok w) :
    ∃ out, pyDumps B asciiString w = .ok out ∧
      (writeContextJson B v [] = .ok out ↔
        raw.EveryNumber KeptInteger ∧ out.length ≤ contextComponentMaxBytes) ∧
      ∀ (text' : String) (raw' : RawTree) (v' : NativeValue B.F) (w' : PyValue B.F) (out' : List Char)
        (start : Option String) (digest : String),
        readDocument text'.toList = some raw' → parse B text' = .ok v' → pyLoads B dictHook text' = .ok w' →
        pyDumps B asciiString w' = .ok out' → raw.EveryNumber KeptInteger → raw'.EveryNumber KeptInteger →
        sha.Separates (utf8 (String.ofList out)) (utf8 (String.ofList out')) →
        canonicalSha256 sha B v start = .ok digest → canonicalSha256 sha B v' start = .ok digest →
        w.sorted KeyOrder.codes = w'.sorted KeyOrder.codes := by
  obtain ⟨u, hread, rfl, hspelled, hdistinct, -⟩ := parse_eq_ok.1 hv
  obtain rfl : u.raw = raw := Option.some.inj (hread.symm.trans hraw)
  obtain rfl := pyLoads_eq hread hdistinct hint hw
  refine ⟨pythonText u, pyDumps_pythonValue u, ?_, ?_⟩
  · rw [writeContextJson_eq_ok hB hspelled, ← contextText_eq_pythonText hB hspelled]
    exact and_congr_left (fun _ => eq_comm)
  · intro text' raw' v' w' out' start digest hread' hv' hw' hout' hkept hkept' hsha hdigest hdigest'
    obtain ⟨u', hu', rfl, hspelled', hdistinct', -⟩ := parse_eq_ok.1 hv'
    obtain rfl : u'.raw = raw' := Option.some.inj (hu'.symm.trans hread')
    obtain rfl := pyLoads_eq hread' hdistinct' (hkept'.imp (fun _ ht => keptInteger_integerToken ht)) hw'
    rw [pyDumps_pythonValue] at hout'
    cases hout'
    have hsame := canonicalSha256_inj hB hspelled hspelled' ?_ hdigest hdigest'
    · rw [(contextText_eq_pythonText hB hspelled).2 hkept, (contextText_eq_pythonText hB hspelled').2 hkept'] at hsame
      exact pythonText_injective hsame
    · rwa [(contextText_eq_pythonText hB hspelled).2 hkept, (contextText_eq_pythonText hB hspelled').2 hkept']

def sampleSpelled (F : Type) : SpelledValue F := .arr [.num (intToken (-1), .int ⟨-1, by decide⟩)]

theorem context_json_matches_python_sample : ∃ out,
    pyDumps Binary64.integral asciiString (pythonValue (sampleSpelled _)) = .ok out ∧
      writeContextJson Binary64.integral (sampleSpelled _).value [] = .ok out := by
  have hread : readDocument "[-1]".toList = some (sampleSpelled Binary64.integral.F).raw := rfl
  have hspelled : Spelled Binary64.integral (sampleSpelled _) :=
    ⟨nativeNumber_intToken Binary64.integral ⟨-1, by decide⟩, trivial⟩
  have hkept : (sampleSpelled Binary64.integral.F).raw.EveryNumber KeptInteger :=
    ⟨⟨_, rfl, spellsNative_intToken ⟨-1, by decide⟩⟩, trivial⟩
  obtain ⟨out, hdumps, hiff, -⟩ :=
    context_json_matches_python Hash.zero Binary64.integral Binary64.lawful_integral "[-1]"
    _ hread (hkept.imp (fun _ h => keptInteger_integerToken h)) (sampleSpelled _).value
    (parse_eq_ok.2 ⟨_, hread, rfl, hspelled, ⟨trivial, trivial⟩, by decide, by decide, trivial, trivial⟩)
    (pythonValue (sampleSpelled _)) rfl
  refine ⟨out, hdumps, hiff.2 ⟨hkept, ?_⟩⟩
  rw [pyDumps_pythonValue] at hdumps
  cases hdumps
  decide

/-! ## An integer past 64 bits -/

def wideNumeral : Numeral := ⟨false, "18446744073709551616".toList, none, none⟩

theorem integer_wideNumeral : wideNumeral.integer = 18446744073709551616 := by decide

theorem not_spellsNative_wideNumeral : ¬ wideNumeral.SpellsNative := by decide

def wideSpelled {B : Binary64} (f : B.F) : SpelledValue B.F := .num (.numeral wideNumeral, .float f)

theorem readDocument_wide {B : Binary64} (f : B.F) :
    readDocument "18446744073709551616".toList = some (wideSpelled f).raw := rfl

theorem pythonText_wide {B : Binary64} (f : B.F) : pythonText (wideSpelled f) = intText 18446744073709551616 := by
  rw [← integer_wideNumeral]
  rfl

theorem pyLoads_wide {B : Binary64} (f : B.F) :
    pyLoads B dictHook "18446744073709551616" = .ok (pythonValue (wideSpelled f)) := by
  rw [pyLoads, readDocument_wide f]
  rfl

theorem spelled_wide {B : Binary64} {f : B.F} (hf : B.native wideNumeral = some f) : Spelled B (wideSpelled f) := by
  change nativeNumber B (.numeral wideNumeral) = some (.float f)
  rw [nativeNumber, dif_neg not_spellsNative_wideNumeral, hf]
  rfl

theorem parse_wide {B : Binary64} {f : B.F} (hf : B.native wideNumeral = some f) :
    parse B "18446744073709551616" = .ok (wideSpelled f).value :=
  parse_eq_ok.2 ⟨wideSpelled f, readDocument_wide f, rfl, spelled_wide hf, trivial, trivial⟩

/-- `2^64` is an integer to Python and a float to the resident, whatever text binary64 gives it. -/
theorem writeContextJson_wide_ne {B : Binary64} (hB : B.Lawful) {f : B.F} (hf : B.native wideNumeral = some f) :
    writeContextJson B (wideSpelled f).value [] ≠ .ok (intText 18446744073709551616) := by
  intro hwrite
  have hsame := ((writeContextJson_eq_ok hB (spelled_wide hf)).1 hwrite).1
  rw [← pythonText_wide f] at hsame
  obtain ⟨m, hm, hkept⟩ := (contextText_eq_pythonText hB (spelled_wide hf)).1 hsame.symm
  rw [← NumberToken.numeral.inj hm] at hkept
  exact not_spellsNative_wideNumeral hkept

theorem context_json_differs_past_64_bits : ∃ raw v w,
    readDocument "18446744073709551616".toList = some raw ∧ raw.EveryNumber IntegerToken ∧
      parse Binary64.integral "18446744073709551616" = .ok v ∧
      pyLoads Binary64.integral dictHook "18446744073709551616" = .ok w ∧
      pyDumps Binary64.integral asciiString w = .ok (intText 18446744073709551616) ∧
      writeContextJson Binary64.integral v [] ≠ .ok (intText 18446744073709551616) := by
  obtain ⟨f, hf⟩ := Option.isSome_iff_exists.1
    (Binary64.lawful_integral.native_integer wideNumeral rfl rfl (by decide))
  refine ⟨(wideSpelled f).raw, (wideSpelled f).value, pythonValue (wideSpelled f), readDocument_wide f,
    ⟨wideNumeral, rfl, rfl, rfl⟩, parse_wide hf, pyLoads_wide f, ?_, ?_⟩
  · rw [pyDumps_pythonValue, pythonText_wide]
  · exact writeContextJson_wide_ne Binary64.lawful_integral hf

end Guard.Wire
