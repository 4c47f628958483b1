import HolGuard.Lib.DigestTrie
/-!
# The entries of a trie

`Holds` says which entries a digest names: a leaf its own one, a branch those of its children, each of which has the
entries that go on with its letter.  A search finds exactly the entries (`Holds.looks`), the entries determine the
digest (`Holds.unique`), and an insertion whose writes are all done adds one entry or reports a duplicate
(`insertNode_does`).
-/
namespace Lib

namespace Faulty

variable {σ α β : Type}

/-- The program ends so when every write is done. -/
def Does (c : Faulty σ α) (s : σ) (r : Except String α) (s' : σ) : Prop := c s [] = (r, s', [])

theorem does_pure (a : α) (s : σ) : Does (pure a : Faulty σ α) s (.ok a) s := rfl

theorem does_fail (e : String) (s : σ) : Does (fail e : Faulty σ α) s (.error e) s := rfl

theorem does_lift (x : Except String α) (s : σ) : Does (lift x : Faulty σ α) s x s := rfl

theorem does_get (s : σ) : Does get s (.ok s) s := rfl

theorem does_write (f : σ → σ) (e : String) (s : σ) : Does (write f e) s (.ok ()) (f s) := rfl

theorem Does.bind {c : Faulty σ α} {f : α → Faulty σ β} {s t s' : σ} {a : α} {r : Except String β}
    (hc : Does c s (.ok a) t) (hf : Does (f a) t r s') : Does (c >>= f) s r s' := by
  unfold Does at *
  simp only [Bind.bind, hc, hf]

theorem Does.bind_error {c : Faulty σ α} {f : α → Faulty σ β} {s s' : σ} {e : String} (hc : Does c s (.error e) s') :
    Does (c >>= f) s (.error e) s' := by
  unfold Does at *
  simp only [Bind.bind, hc]

end Faulty

namespace DigestTrie

variable {A D C : Type} {t : Scheme A D C} {E : Set (List A × C)}

def under (E : Set (List A × C)) (p : List A) : Set (List A × C) := {e | e ∈ E ∧ p <+: e.1}

@[simp] theorem mem_under {p : List A} {e : List A × C} : e ∈ under E p ↔ e ∈ E ∧ p <+: e.1 := Iff.rfl

theorem under_insert_on {p key : List A} {content : C} (h : p <+: key) :
    under (insert (key, content) E) p = insert (key, content) (under E p) := by
  ext e
  simp only [mem_under, Set.mem_insert_iff]
  constructor
  · rintro ⟨rfl | he, hpre⟩
    · exact .inl rfl
    · exact .inr ⟨he, hpre⟩
  · rintro (rfl | ⟨he, hpre⟩)
    · exact ⟨.inl rfl, h⟩
    · exact ⟨.inr he, hpre⟩

theorem under_insert_off {p key : List A} {content : C} (h : ¬ p <+: key) :
    under (insert (key, content) E) p = under E p := by
  ext e
  simp only [mem_under, Set.mem_insert_iff]
  constructor
  · rintro ⟨rfl | he, hpre⟩
    · exact absurd hpre h
    · exact ⟨he, hpre⟩
  · rintro ⟨he, hpre⟩
    exact ⟨.inr he, hpre⟩

theorem eq_of_next {p k : List A} {a b : A} (ha : p ++ [a] <+: k) (hb : p ++ [b] <+: k) : a = b := by
  have h := getElem?_of_concat_isPrefix ha
  rw [getElem?_of_concat_isPrefix hb] at h
  exact (Option.some.inj h).symm

variable [DecidableEq A]

/-- **The entries a digest names.** -/
inductive Holds (t : Scheme A D C) (files : Files A D C) : D → List A → Set (List A × C) → Prop
  | leaf {d : D} {expected key : List A} {content : C} (read : Reads t files d (.leaf key content))
      (start : expected <+: key) : Holds t files d expected {(key, content)}
  | branch {d : D} {expected letters : List A} {children : Finmap (fun _ : A => D)} {E : Set (List A × C)}
      (read : Reads t files d (.branch letters children)) (start : expected <+: letters)
      (all : ∀ e ∈ E, ∃ a child, children.lookup a = some child ∧ letters ++ [a] <+: e.1)
      (below : ∀ a child, children.lookup a = some child →
        Holds t files child (letters ++ [a]) (under E (letters ++ [a]))) :
      Holds t files d expected E

variable {letters : List A} {children : Finmap (fun _ : A => D)}

/-- Every entry goes on at a child. -/
abbrev Covers (children : Finmap (fun _ : A => D)) (letters : List A) (E : Set (List A × C)) : Prop :=
  ∀ e ∈ E, ∃ a child, children.lookup a = some child ∧ letters ++ [a] <+: e.1

/-- Every child holds the entries that go on with its letter. -/
abbrev Below (t : Scheme A D C) (files : Files A D C) (children : Finmap (fun _ : A => D)) (letters : List A)
    (E : Set (List A × C)) : Prop :=
  ∀ a child, children.lookup a = some child → Holds t files child (letters ++ [a]) (under E (letters ++ [a]))

theorem two_children (h : t.valid (.branch letters children) = true) :
    ∃ a b x y, a ≠ b ∧ children.lookup a = some x ∧ children.lookup b = some y := by
  simp only [Scheme.valid, Bool.and_eq_true, decide_eq_true_eq] at h
  obtain ⟨a, ha, b, hb, hab⟩ := Finset.one_lt_card.1 (show 1 < children.keys.card by omega)
  obtain ⟨x, hx⟩ := Finmap.mem_iff.1 (Finmap.mem_keys.1 ha)
  obtain ⟨y, hy⟩ := Finmap.mem_iff.1 (Finmap.mem_keys.1 hb)
  exact ⟨a, b, x, y, hab, hx, hy⟩

namespace Holds

variable {files : Files A D C} {d : D} {expected : List A}

theorem reads (h : Holds t files d expected E) : ∃ n, Reads t files d n ∧ expected <+: n.letters := by
  cases h with
  | leaf read start => exact ⟨_, read, start⟩
  | branch read start all below => exact ⟨_, read, start⟩

theorem mono {files' : Files A D C} (hg : Grown files files') (h : Holds t files d expected E) :
    Holds t files' d expected E := by
  induction h with
  | leaf read start => exact .leaf (read.mono hg) start
  | branch read start all below ih => exact .branch (read.mono hg) start all ih

theorem of_start (h : Holds t files d expected E) {n : Node A D C} (hn : Reads t files d n) {expected' : List A}
    (hstart : expected' <+: n.letters) : Holds t files d expected' E := by
  cases h with
  | leaf read start =>
    obtain rfl := hn.unique read
    exact .leaf read hstart
  | branch read start all below =>
    obtain rfl := hn.unique read
    exact .branch read hstart all below

theorem nonempty (h : Holds t files d expected E) : E.Nonempty := by
  induction h with
  | leaf read start => exact Set.singleton_nonempty _
  | branch read start all below ih =>
    obtain ⟨a, b, x, y, -, hx, -⟩ := two_children read.2.2
    obtain ⟨e, he⟩ := ih a x hx
    exact ⟨e, he.1⟩

theorem startsWith_letters (h : Holds t files d expected E) {n : Node A D C} (hn : Reads t files d n) :
    ∀ e ∈ E, n.letters <+: e.1 := by
  cases h with
  | leaf read start =>
    obtain rfl := hn.unique read
    intro e he
    obtain rfl := Set.mem_singleton_iff.1 he
    exact List.prefix_rfl
  | branch read start all below =>
    obtain rfl := hn.unique read
    intro e he
    obtain ⟨a, -, -, hnext⟩ := all e he
    exact (List.prefix_append _ _).trans hnext

theorem validLeaf (h : Holds t files d expected E) : ∀ e ∈ E, t.validLeaf e.1 e.2 = true := by
  induction h with
  | leaf read start =>
    intro e he
    obtain rfl := Set.mem_singleton_iff.1 he
    exact read.2.2
  | branch read start all below ih =>
    intro e he
    obtain ⟨a, child, hchild, hnext⟩ := all e he
    exact ih a child hchild e ⟨he, hnext⟩

/-- **A search finds exactly the entries.** -/
theorem looks (h : Holds t files d expected E) {wanted : List A} (hwidth : wanted.length = t.width) :
    ∃ found, Looks t files wanted d expected found ∧ ∀ c, found = some c ↔ (wanted, c) ∈ E := by
  induction h with
  | @leaf d expected key content read start =>
    refine ⟨_, .leaf read start, fun c => ?_⟩
    by_cases hkey : key = wanted
    · subst hkey
      simp [eq_comm]
    · simp [hkey, Ne.symm hkey]
  | @branch d expected letters children E read start all below ih =>
    by_cases hon : letters <+: wanted
    · have hlength : letters.length < wanted.length := by
        have := length_lt_of_valid read.2.2
        omega
      obtain ⟨a, ha⟩ := next_letter hon hlength
      cases hchild : children.lookup a with
      | none =>
        refine ⟨none, .missing read start ha hchild, fun c => ⟨nofun, fun hc => ?_⟩⟩
        obtain ⟨b, child, hb, hnext⟩ := all _ hc
        rw [eq_of_next ha hnext, hb] at hchild
        cases hchild
      | some child =>
        obtain ⟨found, hlooks, hfound⟩ := ih a child hchild
        refine ⟨found, .down read start ha hchild hlooks, fun c => ?_⟩
        rw [hfound]
        exact ⟨fun hc => hc.1, fun hc => ⟨hc, ha⟩⟩
    · refine ⟨none, .away read start hon, fun c => ⟨nofun, fun hc => ?_⟩⟩
      obtain ⟨b, child, -, hnext⟩ := all _ hc
      exact absurd ((List.prefix_append _ _).trans hnext) hon

/-- Two keys of a branch go on with different letters. -/
theorem two_entries (hread : Reads t files d (.branch letters children)) (below : Below t files children letters E) :
    ∃ a b e e', a ≠ b ∧ e ∈ E ∧ e' ∈ E ∧ letters ++ [a] <+: e.1 ∧ letters ++ [b] <+: e'.1 := by
  obtain ⟨a, b, x, y, hab, hx, hy⟩ := two_children hread.2.2
  obtain ⟨e, he, hnext⟩ := (below a x hx).nonempty
  obtain ⟨e', he', hnext'⟩ := (below b y hy).nonempty
  exact ⟨a, b, e, e', hab, he, he', hnext, hnext'⟩

theorem not_singleton (hread : Reads t files d (.branch letters children)) {x : List A × C}
    (below : Below t files children letters {x}) : False := by
  obtain ⟨a, b, e, e', hab, he, he', hnext, hnext'⟩ := two_entries hread below
  cases Set.mem_singleton_iff.1 he
  cases Set.mem_singleton_iff.1 he'
  exact hab (eq_of_next hnext hnext')

/-- The letters of a branch are all that its keys share. -/
theorem letters_le {q : List A} (hread : Reads t files d (.branch letters children))
    (below : Below t files children letters E) (hq : ∀ e ∈ E, q <+: e.1) : q.length ≤ letters.length := by
  obtain ⟨a, b, e, e', hab, he, he', hnext, hnext'⟩ := two_entries hread below
  by_contra hlt
  -- otherwise two keys with different next letters would share one more letter
  have hletter : ∀ {k : List A} {c : A}, q <+: k → letters ++ [c] <+: k → q[letters.length]? = some c := by
    intro k c hqk hck
    obtain ⟨rest, rfl⟩ := hqk
    have hget := getElem?_of_concat_isPrefix hck
    rwa [List.getElem?_append_left (by omega)] at hget
  have ha := hletter (hq e he) hnext
  rw [hletter (hq e' he') hnext'] at ha
  exact hab (Option.some.inj ha).symm

/-- **The entries determine the digest**, whatever files it was built in. -/
theorem unique (h : Holds t files d expected E) : ∀ {files' : Files A D C} {d' : D} {expected' : List A},
    Holds t files' d' expected' E → d = d' := by
  induction h with
  | @leaf d expected key content read start =>
    intro files' d' expected' h'
    generalize hE : ({(key, content)} : Set (List A × C)) = E' at h'
    cases h' with
    | leaf read' start' =>
      cases Set.singleton_injective hE
      exact read.2.1.symm.trans read'.2.1
    | branch read' start' all' below' =>
      subst hE
      exact (not_singleton read' below').elim
  | @branch d expected letters children E read start all below ih =>
    intro files' d' expected' h'
    cases h' with
    | leaf read' start' => exact (not_singleton read below).elim
    | @branch _ _ letters' children' _ read' start' all' below' =>
      have hwhole : Holds t files d expected E := .branch read start all below
      have hpre : ∀ e ∈ E, letters <+: e.1 := hwhole.startsWith_letters read
      have hpre' : ∀ e ∈ E, letters' <+: e.1 := (Holds.branch read' start' all' below').startsWith_letters read'
      have hlength : letters.length = letters'.length :=
        Nat.le_antisymm (letters_le read' below' hpre) (letters_le read below hpre')
      obtain ⟨e, he⟩ := hwhole.nonempty
      obtain rfl : letters = letters' := by
        obtain ⟨rest, hrest⟩ := hpre e he
        obtain ⟨rest', hrest'⟩ := hpre' e he
        exact (List.append_inj (hrest.trans hrest'.symm) hlength).1
      have hchildren : children = children' := by
        refine Finmap.ext_lookup (fun a => ?_)
        -- a letter leads somewhere in either branch exactly when an entry goes on with it
        have hsome : ∀ {files : Files A D C} {children children' : Finmap (fun _ : A => D)},
            Below t files children letters E → Covers children' letters E →
            ∀ child, children.lookup a = some child → ∃ child', children'.lookup a = some child' := by
          intro files children children' hbelow hall child hchild
          obtain ⟨e, he, hnext⟩ := (hbelow a child hchild).nonempty
          obtain ⟨b, child', hchild', hnext'⟩ := hall e he
          rw [← eq_of_next hnext hnext'] at hchild'
          exact ⟨child', hchild'⟩
        cases hx : children.lookup a with
        | some x =>
          obtain ⟨y, hy⟩ := hsome below all' x hx
          rw [hy, ih a x hx (below' a y hy)]
        | none =>
          cases hy : children'.lookup a with
          | none => rfl
          | some y =>
            obtain ⟨x, hx'⟩ := hsome below' all y hy
            rw [hx'] at hx
            cases hx
      subst hchildren
      exact read.2.1.symm.trans read'.2.1

end Holds

/-! ## Insertions whose writes are done -/

/-- Every file is well formed and has the digest it is named by. -/
def Sound (t : Scheme A D C) (files : Files A D C) : Prop := ∀ d n, files d = some n → t.digest n = d ∧ t.valid n = true

omit [DecidableEq A] in
/-- **A valid node is written**, unless it is there already. -/
theorem writeNode_does [DecidableEq D] (hinj : Function.Injective t.digest) {f : Files A D C} (hsound : Sound t f)
    {n : Node A D C} (hvalid : t.valid n = true) :
    ∃ f', Faulty.Does (t.writeNode n) f (.ok (t.digest n)) f' ∧ Grown f f' ∧ Sound t f' ∧
    Reads t f' (t.digest n) n := by
  unfold Scheme.writeNode
  rw [if_pos hvalid]
  cases hn : f (t.digest n) with
  | some m =>
    obtain rfl : m = n := hinj (hsound _ m hn).1
    have hreads : Reads t f (t.digest m) m := ⟨hn, rfl, hvalid⟩
    refine ⟨f, ?_, .refl f, hsound, hreads⟩
    refine (Faulty.does_get f).bind ?_
    simp only [hn]
    refine Faulty.Does.bind (a := ⟨m, hvalid⟩) ?_ (Faulty.does_pure _ _)
    rw [(readNode_eq_ok (n := ⟨m, hvalid⟩)).2 hreads]
    exact Faulty.does_lift _ _
  | none =>
    refine ⟨Function.update f (t.digest n) (some n), ?_, grown_update hn, ?_, Function.update_self _ _ _, rfl, hvalid⟩
    · refine (Faulty.does_get f).bind ?_
      simp only [hn]
      exact (Faulty.does_write _ _ _).bind (Faulty.does_pure _ _)
    · intro d m hm
      by_cases hd : d = t.digest n
      · rw [hd, Function.update_self] at hm
        cases hm
        exact ⟨hd.symm, hvalid⟩
      · rw [Function.update_of_ne hd] at hm
        exact hsound d m hm

theorem length_le_common : ∀ {p as bs : List A}, p <+: as → p <+: bs → p.length ≤ common as bs
  | [], _, _, _, _ => Nat.zero_le _
  | c :: p, as, bs, ha, hb => by
    obtain ⟨ra, rfl⟩ := ha
    obtain ⟨rb, rfl⟩ := hb
    simp only [List.cons_append, common, if_true, List.length_cons]
    exact Nat.succ_le_succ (length_le_common (List.prefix_append p ra) (List.prefix_append p rb))

theorem common_le_left : ∀ as bs : List A, common as bs ≤ as.length
  | [], _ => by simp [common]
  | _ :: _, [] => by simp [common]
  | a :: as, b :: bs => by
    simp only [common, List.length_cons]
    split
    · exact Nat.succ_le_succ (common_le_left as bs)
    · exact Nat.zero_le _

/-- The entries below a place that may be empty. -/
def HoldsAt (t : Scheme A D C) (files : Files A D C) (expected : List A) (E : Set (List A × C)) : Option D → Prop
  | none => E = ∅
  | some d => Holds t files d expected E

section Letters

variable (alphabet : Finset A)

/-- The letters of a branch that holds entries are letters of their keys. -/
theorem keys_subset_alphabet {files : Files A D C} (hE : ∀ e ∈ E, ∀ a ∈ e.1, a ∈ alphabet)
    (below : Below t files children letters E) : children.keys ⊆ alphabet := by
  intro a ha
  obtain ⟨child, hchild⟩ := Finmap.mem_iff.1 (Finmap.mem_keys.1 ha)
  obtain ⟨e, he, hnext⟩ := (below a child hchild).nonempty
  exact hE e he a (hnext.subset (by simp))

/-- The branch made where a new key leaves a node. -/
theorem holds_split {f : Files A D C} {root leaf d : D} {node : Node A D C} {expected key : List A} {content : C}
    {here there : A} (hnode : Reads t f root node) (hroot : Holds t f root expected E)
    (hleaf : Reads t f leaf (.leaf key content))
    (hhere : node.letters[common key node.letters]? = some here) (hthere : key[common key node.letters]? = some there)
    (hd : Reads t f d (.branch (key.take (common key node.letters)) ((Finmap.singleton here root).insert there leaf)))
    (hstart : expected <+: key.take (common key node.letters)) :
    Holds t f d expected (insert (key, content) E) := by
  obtain ⟨hne, hkeynext, hnodenext⟩ := part_of_common hhere hthere
  generalize key.take (common key node.letters) = q at hd hstart hkeynext hnodenext
  have hentries : ∀ e ∈ E, q ++ [here] <+: e.1 := fun e he => hnodenext.trans (hroot.startsWith_letters hnode e he)
  refine .branch hd hstart ?_ ?_
  · intro e he
    rcases Set.mem_insert_iff.1 he with rfl | he
    · exact ⟨there, leaf, Finmap.lookup_insert _, hkeynext⟩
    · refine ⟨here, root, ?_, hentries e he⟩
      rw [Finmap.lookup_insert_of_ne _ (Ne.symm hne), Finmap.lookup_singleton_eq]
  · intro a child hchild
    by_cases hat : a = there
    · subst hat
      rw [Finmap.lookup_insert] at hchild
      cases hchild
      have hempty : under E (q ++ [a]) = ∅ :=
        Set.eq_empty_iff_forall_notMem.2 (fun e he => hne (eq_of_next he.2 (hentries e he.1)))
      rw [under_insert_on hkeynext, hempty, insert_empty_eq]
      exact .leaf hleaf hkeynext
    · rw [Finmap.lookup_insert_of_ne _ hat] at hchild
      by_cases hah : a = here
      · subst hah
        rw [Finmap.lookup_singleton_eq] at hchild
        cases hchild
        have hall : under E (q ++ [a]) = E := Set.ext (fun e => and_iff_left_of_imp (hentries e))
        rw [under_insert_off (fun hpre => hne (eq_of_next hkeynext hpre)), hall]
        exact hroot.of_start hnode hnodenext
      · have hgap : (Finmap.singleton (β := fun _ : A => D) here root).lookup a = none := by
          simpa [Finmap.lookup_eq_none] using hah
        rw [hgap] at hchild
        cases hchild

/-- A branch with one more entry below one of its letters. -/
theorem holds_branch_insert {f : Files A D C} {next d : D} {expected key : List A} {content : C}
    {edge : A} (hnext : letters ++ [edge] <+: key) (hall : Covers children letters E)
    (hbelow : Below t f children letters E)
    (hinner : Holds t f next (letters ++ [edge]) (insert (key, content) (under E (letters ++ [edge]))))
    (hd : Reads t f d (.branch letters (children.insert edge next))) (hstart : expected <+: letters) :
    Holds t f d expected (insert (key, content) E) := by
  refine .branch hd hstart ?_ ?_
  · intro e he
    rcases Set.mem_insert_iff.1 he with rfl | he
    · exact ⟨edge, next, Finmap.lookup_insert _, hnext⟩
    · obtain ⟨a, child, hchild, hnext'⟩ := hall e he
      by_cases hae : a = edge
      · subst hae
        exact ⟨a, next, Finmap.lookup_insert _, hnext'⟩
      · exact ⟨a, child, by rwa [Finmap.lookup_insert_of_ne _ hae], hnext'⟩
  · intro a child hchild
    by_cases hae : a = edge
    · subst hae
      rw [Finmap.lookup_insert] at hchild
      cases hchild
      rw [under_insert_on hnext]
      exact hinner
    · rw [Finmap.lookup_insert_of_ne _ hae] at hchild
      rw [under_insert_off (fun hpre => hae (eq_of_next hpre hnext))]
      exact hbelow a child hchild

/-- A branch with one more child, whose letters are in an alphabet that fits. -/
theorem valid_insert {edge : A} {next : D} (hlength : letters.length < t.width) (hcard : alphabet.card ≤ t.fanout)
    (hkeys : children.keys ⊆ alphabet) (hedge : edge ∈ alphabet) (htwo : 2 ≤ (insert edge children.keys).card) :
    t.valid (.branch letters (children.insert edge next)) = true := by
  have hsame : (children.insert edge next).keys = insert edge children.keys := by
    ext a
    simp [Finmap.mem_keys, Finmap.mem_insert]
  have hsub := Finset.card_le_card (Finset.insert_subset hedge hkeys)
  simp only [Scheme.valid, hsame, Bool.and_eq_true, decide_eq_true_eq]
  omega

variable [DecidableEq D] {key : List A} {content : C} {minimum : Nat} {f : Files A D C}

/-- What an insertion whose writes are done does: it adds the entry, or reports the key as a duplicate and writes
nothing. -/
def Inserts (t : Scheme A D C) (key : List A) (content : C) (minimum : Nat) (root : Option D) (E : Set (List A × C))
    (f : Files A D C) : Prop :=
  ((∃ c, (key, c) ∈ E) → Faulty.Does (t.insertNode key content minimum root) f (.error t.duplicate) f) ∧
  ((∀ c, (key, c) ∉ E) → ∃ d f', Faulty.Does (t.insertNode key content minimum root) f (.ok d) f' ∧
    Grown f f' ∧ Sound t f' ∧ Holds t f' d (key.take minimum) (insert (key, content) E))

theorem inserts_none (hinj : Function.Injective t.digest) (hleaf : t.validLeaf key content = true)
    (hsound : Sound t f) : Inserts t key content minimum none ∅ f := by
  unfold Inserts
  rw [Scheme.insertNode.eq_def]
  refine ⟨fun ⟨c, hc⟩ => absurd hc (Set.notMem_empty _), fun _ => ?_⟩
  obtain ⟨f', hdoes, hgrown, hsound', hreads⟩ := writeNode_does hinj hsound (n := .leaf key content) hleaf
  refine ⟨_, f', hdoes, hgrown, hsound', ?_⟩
  rw [insert_empty_eq]
  exact .leaf hreads (List.take_prefix _ _)

section Node

variable {root : D} {node : Node A D C}

/-- The key shares `minimum` letters with the node, and all of the node's. -/
structure GoesOn (key : List A) (minimum : Nat) (node : Node A D C) : Prop where
  minimum : ¬ common key node.letters < minimum
  shared : ¬ common key node.letters < node.letters.length

omit [DecidableEq D] in
theorem GoesOn.isPrefix (h : GoesOn key minimum node) : node.letters <+: key := prefix_of_common h.shared

omit [DecidableEq A] in
/-- The program after the node is read. -/
theorem does_read (hnode : Reads t f root node) {r : Except String D} {f' : Files A D C}
    {rest : { n : Node A D C // t.valid n = true } → Faulty (Files A D C) D}
    (hrest : Faulty.Does (rest ⟨node, hnode.2.2⟩) f r f') :
    Faulty.Does (Faulty.get >>= fun files => Faulty.lift (t.readNode files root) >>= rest) f r f' := by
  have hread : t.readNode f root = .ok ⟨node, hnode.2.2⟩ := readNode_eq_ok.2 hnode
  refine (Faulty.does_get f).bind (Faulty.Does.bind (a := ⟨node, hnode.2.2⟩) ?_ hrest)
  rw [hread]
  exact Faulty.does_lift _ _

/-- The key leaves the node's letters: it is new, and a branch is made above. -/
theorem inserts_split (hinj : Function.Injective t.digest) (hleaf : t.validLeaf key content = true)
    (hcard : alphabet.card ≤ t.fanout) (hkey : ∀ a ∈ key, a ∈ alphabet) (hsound : Sound t f)
    (hE : ∀ e ∈ E, ∀ a ∈ e.1, a ∈ alphabet) (hroot : Holds t f root (key.take minimum) E) (hnode : Reads t f root node)
    (hminimum : ¬ common key node.letters < minimum) (hshared : common key node.letters < node.letters.length) :
    Inserts t key content minimum (some root) E f := by
  have hwidth : key.length = t.width := t.length_of_validLeaf key content hleaf
  have hentries := hroot.startsWith_letters hnode
  have hleft : ¬ node.letters <+: key := by
    intro hpre
    have hlength := length_le_common hpre List.prefix_rfl
    omega
  have hlt : common key node.letters < key.length := by
    refine Nat.lt_of_le_of_ne (common_le_left _ _) (fun heq => ?_)
    obtain ⟨e, he⟩ := hroot.nonempty
    have hlong := t.length_of_validLeaf _ _ (hroot.validLeaf e he)
    have hshort := (hentries e he).length_le
    omega
  obtain ⟨here, hhere⟩ : ∃ here, node.letters[common key node.letters]? = some here :=
    ⟨_, List.getElem?_eq_getElem hshared⟩
  obtain ⟨there, hthere⟩ : ∃ there, key[common key node.letters]? = some there :=
    ⟨_, List.getElem?_eq_getElem hlt⟩
  have hvalid : t.valid (.branch (key.take (common key node.letters))
      ((Finmap.singleton here root).insert there (t.digest (.leaf key content)))) = true := by
    have hkeys : (Finmap.singleton (β := fun _ : A => D) here root).keys = {here} := Finmap.keys_singleton _ _
    have hmem : here ∈ alphabet := by
      obtain ⟨e, he⟩ := hroot.nonempty
      exact hE e he here ((hentries e he).subset (List.mem_of_getElem? hhere))
    refine valid_insert alphabet ?_ hcard ?_ (hkey there (List.mem_of_getElem? hthere)) ?_
    · rw [List.length_take]
      omega
    · rw [hkeys]
      exact Finset.singleton_subset_iff.2 hmem
    · rw [hkeys, Finset.card_pair (ne_of_common hthere hhere)]
  unfold Inserts
  rw [Scheme.insertNode.eq_def]
  refine ⟨fun ⟨c, hc⟩ => absurd (hentries _ hc) hleft, fun _ => ?_⟩
  obtain ⟨f₁, hdoes₁, hgrown₁, hsound₁, hreads₁⟩ := writeNode_does hinj hsound (n := .leaf key content) hleaf
  obtain ⟨f₂, hdoes₂, hgrown₂, hsound₂, hreads₂⟩ := writeNode_does hinj hsound₁ hvalid
  have hgrown := hgrown₁.trans hgrown₂
  refine ⟨t.digest (.branch (key.take (common key node.letters))
    ((Finmap.singleton here root).insert there (t.digest (.leaf key content)))), f₂, does_read hnode ?_,
    hgrown, hsound₂,
    ?_⟩
  · simp only
    rw [dif_neg hminimum, dif_pos hshared]
    refine hdoes₁.bind ?_
    simp only [hhere, hthere]
    exact hdoes₂
  · exact holds_split (hnode.mono hgrown) (hroot.mono hgrown) (hreads₁.mono hgrown₂) hhere hthere hreads₂
      (List.take_prefix_take_left (Nat.le_of_not_lt hminimum))

/-- A leaf whose whole key the new one starts with is the leaf of the key. -/
theorem inserts_duplicate {key₀ : List A} {content₀ : C} (hleaf : t.validLeaf key content = true)
    (hnode : Reads t f root (.leaf key₀ content₀)) (hon : GoesOn key minimum (.leaf key₀ content₀ : Node A D C)) :
    Inserts t key content minimum (some root) {(key₀, content₀)} f := by
  have hsame : key₀ = key := by
    refine hon.isPrefix.eq_of_length ?_
    rw [t.length_of_validLeaf key content hleaf]
    exact t.length_of_validLeaf _ _ hnode.2.2
  subst hsame
  unfold Inserts
  rw [Scheme.insertNode.eq_def]
  refine ⟨fun _ => does_read hnode ?_, fun hnot => absurd rfl (hnot content₀)⟩
  simp only
  rw [dif_neg hon.minimum, dif_neg hon.shared]
  exact Faulty.does_fail _ _

/-- The key goes on below a branch, at the child of its next letter or at a new one. -/
theorem inserts_below {edge : A} (hinj : Function.Injective t.digest) (hcard : alphabet.card ≤ t.fanout)
    (hkey : ∀ a ∈ key, a ∈ alphabet) (hE : ∀ e ∈ E, ∀ a ∈ e.1, a ∈ alphabet)
    (hnode : Reads t f root (.branch letters children)) (hall : Covers children letters E)
    (hbelow : Below t f children letters E) (hstart : key.take minimum <+: letters)
    (hon : GoesOn key minimum (.branch letters children : Node A D C)) (hnext : letters ++ [edge] <+: key)
    (hinner : Inserts t key content (letters.length + 1) (children.lookup edge) (under E (letters ++ [edge])) f) :
    Inserts t key content minimum (some root) E f := by
  have hedge := getElem?_of_concat_isPrefix hnext
  obtain ⟨hdup, hnew⟩ := hinner
  unfold Inserts
  rw [Scheme.insertNode.eq_def]
  refine ⟨fun ⟨c, hc⟩ => does_read hnode ?_, fun hnot => ?_⟩
  · simp only
    rw [dif_neg hon.minimum, dif_neg hon.shared]
    simp only [hedge]
    exact (hdup ⟨c, hc, hnext⟩).bind_error
  · obtain ⟨next, f₁, hdoes₁, hgrown₁, hsound₁, hholds₁⟩ := hnew (fun c hc => hnot c hc.1)
    rw [take_next hnext] at hholds₁
    have hvalid : t.valid (.branch letters (children.insert edge next)) = true := by
      have hold := hnode.2.2
      simp only [Scheme.valid, Bool.and_eq_true, decide_eq_true_eq] at hold
      exact valid_insert alphabet (length_lt_of_valid hnode.2.2) hcard (keys_subset_alphabet alphabet hE hbelow)
        (hkey edge (hnext.subset (by simp)))
        (hold.1.2.trans (Finset.card_le_card (Finset.subset_insert edge children.keys)))
    obtain ⟨f₂, hdoes₂, hgrown₂, hsound₂, hreads₂⟩ := writeNode_does hinj hsound₁ hvalid
    refine ⟨t.digest (.branch letters (children.insert edge next)), f₂, does_read hnode ?_, hgrown₁.trans hgrown₂,
      hsound₂, ?_⟩
    · simp only
      rw [dif_neg hon.minimum, dif_neg hon.shared]
      simp only [hedge]
      exact hdoes₁.bind hdoes₂
    · refine holds_branch_insert hnext hall ?_ (hholds₁.mono hgrown₂) hreads₂ hstart
      exact fun a child hchild => (hbelow a child hchild).mono (hgrown₁.trans hgrown₂)

end Node

omit [DecidableEq D] in
/-- The entries that go on with a letter are those at its child, or there are none. -/
theorem holdsAt_child {edge : A} (hall : Covers children letters E) (hbelow : Below t f children letters E) :
    HoldsAt t f (letters ++ [edge]) (under E (letters ++ [edge])) (children.lookup edge) := by
  cases hchild : children.lookup edge with
  | some child => exact hbelow edge child hchild
  | none =>
    refine Set.eq_empty_iff_forall_notMem.2 (fun e he => ?_)
    obtain ⟨a, child, hchild', hnext'⟩ := hall e he.1
    rw [eq_of_next he.2 hnext', hchild'] at hchild
    cases hchild

/-- **An insertion whose writes are done** adds the entry, or reports the key as a duplicate and writes nothing. -/
theorem insertNode_does (hinj : Function.Injective t.digest) (hleaf : t.validLeaf key content = true)
    (hcard : alphabet.card ≤ t.fanout) (hkey : ∀ a ∈ key, a ∈ alphabet) :
    ∀ {minimum : Nat} {root : Option D} {E : Set (List A × C)} {f : Files A D C}, Sound t f → minimum ≤ t.width →
      (∀ e ∈ E, ∀ a ∈ e.1, a ∈ alphabet) → HoldsAt t f (key.take minimum) E root →
        Inserts t key content minimum root E f := by
  have hwidth : key.length = t.width := t.length_of_validLeaf key content hleaf
  intro minimum
  -- the room left below the known letters shrinks with every branch
  induction hroom : t.width - minimum using Nat.strong_induction_on generalizing minimum with
  | _ room ih =>
    intro root E f hsound hle hE hroot
    cases root with
    | none =>
      obtain rfl : E = ∅ := hroot
      exact inserts_none hinj hleaf hsound
    | some root =>
      have hroot : Holds t f root (key.take minimum) E := hroot
      obtain ⟨node, hnode, hstart⟩ := hroot.reads
      have hminimum : ¬ common key node.letters < minimum := by
        have hlength := length_le_common (List.take_prefix minimum key) hstart
        rw [List.length_take] at hlength
        omega
      by_cases hshared : common key node.letters < node.letters.length
      · exact inserts_split alphabet hinj hleaf hcard hkey hsound hE hroot hnode hminimum hshared
      · have hon : GoesOn key minimum node := ⟨hminimum, hshared⟩
        cases hroot with
        | leaf read start =>
          obtain rfl := hnode.unique read
          exact inserts_duplicate hleaf read hon
        | @branch _ _ letters children _ read start all below =>
          obtain rfl := hnode.unique read
          have hbound := length_lt_of_valid read.2.2
          have hdeeper : minimum ≤ letters.length := (Nat.le_of_not_lt hminimum).trans (common_le_right _ _)
          obtain ⟨edge, hnext⟩ : ∃ edge, letters ++ [edge] <+: key := next_letter hon.isPrefix (hwidth ▸ hbound)
          refine inserts_below alphabet hinj hcard hkey hE read all below hstart hon hnext ?_
          refine ih _ (by omega) rfl hsound (by omega) (fun e he => hE e he.1) ?_
          rw [take_next hnext]
          exact holdsAt_child all below

end Letters

end DigestTrie
end Lib
