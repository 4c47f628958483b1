import HolGuard.Lib.TrieEntries
import HolGuard.WorkspaceReview.OneGrant
/-!
# The replay index is a map

Claims are inserted one by one, each into the index of any root returned before, and every returned root is a version of
its own.  With digests that do not collide and files that are not altered, each version answers as the finite map of the
claims inserted on the way to it: `replay_index_refines_map`.

Digests that never collide are more than 64 hexadecimal digits can spell, so the theorem asks of the keys of the run,
not of all digests, that their letters are among sixteen.
-/
namespace Guard.WorkspaceReview

open Lib
open Lib.DigestTrie (Files Grown Holds HoldsAt Reads Scheme Sound insertNode_does)

section

variable {A D : Type} [DecidableEq A] [DecidableEq D]

/-- A root that was returned, with the claims inserted on the way to it, the last one first. -/
structure IndexVersion (D : Type) where
  root : D
  claims : List (Claim D)

structure IndexHistory (A D : Type) where
  disk : Disk A D
  versions : List (IndexVersion D)

def IndexHistory.start : IndexHistory A D := ⟨⟨none, none, fun _ => none⟩, []⟩

/-- A call of `insert_claim`: the version whose root it is given, if any, and the claim. -/
structure IndexCall (D : Type) where
  base : Option Nat
  claim : Claim D

/-- The root a call is given and the claims under it. -/
def IndexHistory.baseOf (h : IndexHistory A D) : Option Nat → Option (Option D × List (Claim D))
  | none => some (none, [])
  | some i => h.versions[i]?.map (fun v => (some v.root, v.claims))

/-- One call, all writes done; a call with no such version does nothing. -/
def indexMachine (p : Platform A D) : Machine (IndexHistory A D) (IndexCall D) (Option (Except String D)) where
  step h call :=
    match h.baseOf call.base with
    | none => (h, none)
    | some (root, claims) =>
      match insertClaim p root call.claim h.disk [] with
      | (.ok d, disk, _) => (⟨disk, h.versions ++ [⟨d, call.claim :: claims⟩]⟩, some (.ok d))
      | (.error e, disk, _) => (⟨disk, h.versions⟩, some (.error e))

/-- A claim the index takes, whose keys are spelled with the letters of `hex`. -/
structure WellFormedClaim (p : Platform A D) (hex : Finset A) (c : Claim D) : Prop where
  semantic : c.semanticDecisionDigest.isSome = true
  expiry : c.expiresAtMs ≠ some 0
  letters : ∀ q x, c.digestFor q = some x → ∀ a ∈ indexKey p q x, a ∈ hex

/-- A node that a search from the root can come to. -/
inductive ReachableNode (p : Platform A D) (files : Files A D (Claim D)) (root : D) : D → Prop
  | root : ReachableNode p files root root
  | child {d child : D} {letters : List A} {children : Finmap (fun _ : A => D)} {a : A}
      (hd : ReachableNode p files root d) (hread : Reads (claimScheme p) files d (.branch letters children))
      (hchild : children.lookup a = some child) : ReachableNode p files root child

/-- Two claims have no key in common. -/
def Apart (c c' : Claim D) : Prop := c.claimId ≠ c'.claimId ∧ c.semanticDecisionDigest ≠ c'.semanticDecisionDigest

def claimEntries (p : Platform A D) (claims : List (Claim D)) : Set (List A × Claim D) :=
  {e | ∃ c ∈ claims, ∃ q x, c.digestFor q = some x ∧ e = (indexKey p q x, c)}

variable {p : Platform A D} {hex : Finset A}

/-! ## One insertion -/

omit [DecidableEq A] [DecidableEq D] in
theorem does_onNodes {α : Type} {c : Faulty (Files A D (Claim D)) α} {disk : Disk A D} {r : Except String α}
    {nodes : Files A D (Claim D)} (h : Faulty.Does c disk.nodes r nodes) :
    Faulty.Does (onNodes c) disk r { disk with nodes := nodes } := by
  unfold Faulty.Does at *
  simp only [onNodes, Faulty.zoom, h]

variable {claims : List (Claim D)}

omit [DecidableEq A] [DecidableEq D] in
theorem mem_claimEntries (hp : CollisionFree p) {q : Purpose} {x : D} {c : Claim D} :
    (indexKey p q x, c) ∈ claimEntries p claims ↔ c ∈ claims ∧ c.digestFor q = some x := by
  constructor
  · rintro ⟨c', hc', q', x', hdigest, heq⟩
    obtain ⟨hkey, rfl⟩ := Prod.mk.inj heq
    obtain ⟨rfl, rfl⟩ := indexKey_injective hp hkey
    exact ⟨hc', hdigest⟩
  · rintro ⟨hc, hdigest⟩
    exact ⟨c, hc, q, x, hdigest, rfl⟩

omit [DecidableEq D] in
theorem validLeaf_own {c : Claim D} (hc : WellFormedClaim p hex c) {q : Purpose} {x : D} (hx : c.digestFor q = some x) :
    (claimScheme p).validLeaf (indexKey p q x) c = true := by
  have hexpiry : (c.expiresAtMs != some 0) = true := bne_iff_ne.2 hc.expiry
  simp only [claimScheme, validLeaf, hc.semantic, hexpiry, Bool.true_and, Bool.or_eq_true, decide_eq_true_eq]
  cases q with
  | claim =>
    cases hx
    exact .inl rfl
  | semantic =>
    have hsemantic : c.semanticDecisionDigest = some x := hx
    exact .inr (by simp [hsemantic])

omit [DecidableEq A] [DecidableEq D] in
theorem claimEntries_letters (hclaims : ∀ c ∈ claims, WellFormedClaim p hex c) :
    ∀ e ∈ claimEntries p claims, ∀ a ∈ e.1, a ∈ hex := by
  rintro e ⟨c, hc, q, x, hx, rfl⟩
  exact (hclaims c hc).letters q x hx

omit [DecidableEq A] [DecidableEq D] in
/-- A claim is filed under its id and under its decision. -/
theorem claimEntries_cons {c : Claim D} {semantic : D} (hsemantic : c.semanticDecisionDigest = some semantic) :
    claimEntries p (c :: claims) = insert (indexKey p .semantic semantic, c)
      (insert (indexKey p .claim c.claimId, c) (claimEntries p claims)) := by
  ext e
  rw [Set.mem_insert_iff, Set.mem_insert_iff, ← or_assoc]
  refine (List.exists_mem_cons_iff _ _ _).trans (or_congr_left ⟨?_, ?_⟩)
  · rintro ⟨q | q, x, hx, rfl⟩
    · cases hx
      exact .inr rfl
    · cases hsemantic.symm.trans hx
      exact .inl rfl
  · rintro (rfl | rfl)
    · exact ⟨.semantic, semantic, hsemantic, rfl⟩
    · exact ⟨.claim, c.claimId, rfl, rfl⟩

/-- **An insertion into the index of some claims** adds the claim, or is refused for a key that one of them has. -/
theorem insertClaim_does (hp : CollisionFree p) (hhex : hex.card ≤ 16) {disk : Disk A D}
    (hsound : Sound (claimScheme p) disk.nodes) {root : Option D} (hclaims : ∀ c ∈ claims, WellFormedClaim p hex c)
    (hroot : HoldsAt (claimScheme p) disk.nodes [] (claimEntries p claims) root)
    {c : Claim D} (hc : WellFormedClaim p hex c) :
    ∃ r disk', Faulty.Does (insertClaim p root c) disk r disk' ∧ Grown disk.nodes disk'.nodes ∧
      Sound (claimScheme p) disk'.nodes ∧ ((∃ e, r = .error e) ↔ ∃ c' ∈ claims, ¬ Apart c c') ∧
      ∀ d, r = .ok d → Holds (claimScheme p) disk'.nodes d [] (claimEntries p (c :: claims)) := by
  have hinj := claimScheme_digest_injective hp
  obtain ⟨semantic, hsemantic⟩ := Option.isSome_iff_exists.1 hc.semantic
  have hclaimKey : c.digestFor .claim = some c.claimId := rfl
  have hsemanticKey : c.digestFor .semantic = some semantic := hsemantic
  have hletters := claimEntries_letters hclaims
  have hprogram : insertClaim p root c =
      (onNodes ((claimScheme p).insertNode (indexKey p .claim c.claimId) c 0 root) >>= fun claimRoot =>
        onNodes ((claimScheme p).insertNode (indexKey p .semantic semantic) c 0 (some claimRoot))) := by
    unfold insertClaim
    rw [hsemantic]
  obtain ⟨hdup₁, hnew₁⟩ := insertNode_does hex hinj (validLeaf_own hc hclaimKey) hhex
    (hc.letters _ _ hclaimKey) hsound (Nat.zero_le _) hletters hroot
  rw [hprogram]
  by_cases hsameId : ∃ c' ∈ claims, c'.claimId = c.claimId
  · obtain ⟨c', hc', hid⟩ := hsameId
    have hfiled : (indexKey p .claim c.claimId, c') ∈ claimEntries p claims :=
      (mem_claimEntries hp).2 ⟨hc', congrArg some hid⟩
    refine ⟨_, _, (does_onNodes (hdup₁ ⟨c', hfiled⟩)).bind_error, .refl _, hsound, ?_, nofun⟩
    exact ⟨fun _ => ⟨c', hc', fun h => h.1 hid.symm⟩, fun _ => ⟨_, rfl⟩⟩
  · obtain ⟨claimRoot, nodes₁, hdoes₁, hgrown₁, hsound₁, hholds₁⟩ := hnew₁ (fun c' hc' => hsameId
      ⟨c', ((mem_claimEntries hp).1 hc').1, Option.some.inj ((mem_claimEntries hp).1 hc').2⟩)
    have hplace : HoldsAt (claimScheme p) nodes₁ [] _ (some claimRoot) := hholds₁
    obtain ⟨hdup₂, hnew₂⟩ := insertNode_does hex hinj (validLeaf_own hc hsemanticKey) hhex
      (hc.letters _ _ hsemanticKey) hsound₁ (Nat.zero_le _)
      (Set.forall_insert_of_forall hletters (hc.letters _ _ hclaimKey)) hplace
    have hmem₁ : ∀ c', (indexKey p .semantic semantic, c') ∈
        insert (indexKey p .claim c.claimId, c) (claimEntries p claims) ↔
          c' ∈ claims ∧ c'.semanticDecisionDigest = some semantic := by
      intro c'
      rw [Set.mem_insert_iff, mem_claimEntries hp]
      exact or_iff_right (fun heq => nomatch (indexKey_injective hp (Prod.mk.inj heq).1).1)
    by_cases hsame : ∃ c' ∈ claims, c'.semanticDecisionDigest = some semantic
    · obtain ⟨c', hc', hdigest⟩ := hsame
      refine ⟨_, _, (does_onNodes hdoes₁).bind (does_onNodes (hdup₂ ⟨c', (hmem₁ c').2 ⟨hc', hdigest⟩⟩)),
        hgrown₁, hsound₁, ?_, nofun⟩
      exact ⟨fun _ => ⟨c', hc', fun h => h.2 (hsemantic.trans hdigest.symm)⟩, fun _ => ⟨_, rfl⟩⟩
    · obtain ⟨d, nodes₂, hdoes₂, hgrown₂, hsound₂, hholds₂⟩ := hnew₂ (fun c' hc' => hsame
        ⟨c', ((hmem₁ c').1 hc').1, ((hmem₁ c').1 hc').2⟩)
      refine ⟨_, _, (does_onNodes hdoes₁).bind (does_onNodes hdoes₂), hgrown₁.trans hgrown₂, hsound₂, ?_, ?_⟩
      · refine ⟨nofun, fun ⟨c', hc', hnot⟩ => absurd ⟨?_, ?_⟩ hnot⟩
        · exact fun h => hsameId ⟨c', hc', h.symm⟩
        · exact fun h => hsame ⟨c', hc', h.symm.trans hsemantic⟩
      · intro d' hd'
        cases hd'
        rw [claimEntries_cons hsemantic]
        exact hholds₂

/-! ## Whole histories -/

/-- What every history keeps: sound files, and versions that hold the entries of their claims. -/
structure IndexInvariant (p : Platform A D) (hex : Finset A) (h : IndexHistory A D) : Prop where
  sound : Sound (claimScheme p) h.disk.nodes
  wellFormed : ∀ v ∈ h.versions, ∀ c ∈ v.claims, WellFormedClaim p hex c
  holds : ∀ v ∈ h.versions, Holds (claimScheme p) h.disk.nodes v.root [] (claimEntries p v.claims)

omit [DecidableEq D] in
theorem indexInvariant_start : IndexInvariant p hex .start := by
  refine ⟨?_, ?_, ?_⟩ <;> intro _ <;> intros <;> contradiction

omit [DecidableEq D] in
theorem IndexInvariant.base {h : IndexHistory A D} (hi : IndexInvariant p hex h) {base : Option Nat}
    {root : Option D} (hbase : h.baseOf base = some (root, claims)) :
    (∀ c ∈ claims, WellFormedClaim p hex c) ∧
      HoldsAt (claimScheme p) h.disk.nodes [] (claimEntries p claims) root := by
  cases base with
  | none =>
    cases hbase
    exact ⟨nofun, Set.eq_empty_iff_forall_notMem.2 (fun e ⟨c, hc, _⟩ => by cases hc)⟩
  | some i =>
    obtain ⟨v, hv, heq⟩ := Option.map_eq_some_iff.1 hbase
    cases heq
    have hmem : v ∈ h.versions := List.mem_of_getElem? hv
    exact ⟨hi.wellFormed v hmem, hi.holds v hmem⟩

/-- **One call** keeps the invariant, the files and the versions, and answers with the new version's root. -/
theorem indexMachine_step (hp : CollisionFree p) (hhex : hex.card ≤ 16) {h : IndexHistory A D}
    (hi : IndexInvariant p hex h) {call : IndexCall D} (hcall : WellFormedClaim p hex call.claim) :
    IndexInvariant p hex ((indexMachine p).step h call).1 ∧
      Grown h.disk.nodes ((indexMachine p).step h call).1.disk.nodes ∧
      h.versions <+: ((indexMachine p).step h call).1.versions := by
  simp only [indexMachine]
  cases hbase : h.baseOf call.base with
  | none => exact ⟨hi, .refl _, List.prefix_rfl⟩
  | some pair =>
    obtain ⟨root, claims⟩ := pair
    obtain ⟨hclaims, hroot⟩ := hi.base hbase
    obtain ⟨r, disk', hdoes, hgrown, hsound, -, hholds⟩ := insertClaim_does hp hhex hi.sound hclaims hroot hcall
    have hkept : ∀ v ∈ h.versions,
        Holds (claimScheme p) disk'.nodes v.root [] (claimEntries p v.claims) :=
      fun v hv => (hi.holds v hv).mono hgrown
    simp only [Faulty.Does] at hdoes
    simp only [hdoes]
    cases r with
    | error e => exact ⟨⟨hsound, hi.wellFormed, hkept⟩, hgrown, List.prefix_rfl⟩
    | ok d =>
      refine ⟨⟨hsound, ?_, ?_⟩, hgrown, List.prefix_append _ _⟩
      · exact List.forall_mem_append.2
          ⟨hi.wellFormed, List.forall_mem_singleton.2 (List.forall_mem_cons.2 ⟨hcall, hclaims⟩)⟩
      · exact List.forall_mem_append.2 ⟨hkept, List.forall_mem_singleton.2 (hholds d rfl)⟩

theorem indexMachine_final (hp : CollisionFree p) (hhex : hex.card ≤ 16) : ∀ {calls : List (IndexCall D)}
    {h : IndexHistory A D}, IndexInvariant p hex h → (∀ call ∈ calls, WellFormedClaim p hex call.claim) →
      IndexInvariant p hex ((indexMachine p).final h calls) ∧
      Grown h.disk.nodes ((indexMachine p).final h calls).disk.nodes ∧
      h.versions <+: ((indexMachine p).final h calls).versions
  | [], _, hi, _ => ⟨hi, .refl _, List.prefix_rfl⟩
  | call :: calls, h, hi, hcalls => by
    obtain ⟨hcall, hrest⟩ := List.forall_mem_cons.1 hcalls
    obtain ⟨hi₁, hgrown₁, hversions₁⟩ := indexMachine_step hp hhex hi hcall
    obtain ⟨hi₂, hgrown₂, hversions₂⟩ := indexMachine_final hp hhex hi₁ hrest
    exact ⟨hi₂, hgrown₁.trans hgrown₂, hversions₁.trans hversions₂⟩

theorem find_eq (hp : CollisionFree p) {files : Files A D (Claim D)} {disk : Disk A D}
    (hdisk : disk.nodes = files) {root : D}
    (hholds : Holds (claimScheme p) files root [] (claimEntries p claims)) (q : Purpose) (x : D) (n : Nat) :
    (find p q ⟨root, n⟩ x disk []).1 = .ok (claims.find? (fun c => c.digestFor q = some x)) := by
  have hwidth : (indexKey p q x).length = (claimScheme p).width := p.length_letters _
  obtain ⟨found, hlooks, hfound⟩ := hholds.looks hwidth
  subst hdisk
  show (claimScheme p).lookup disk.nodes root (indexKey p q x) = _
  rw [DigestTrie.lookup_eq_ok.2 hlooks]
  congr 1
  have hmem : ∀ c, found = some c ↔ c ∈ claims ∧ c.digestFor q = some x := fun c => by
    rw [hfound, mem_claimEntries hp]
  cases hfind : claims.find? (fun c => decide (c.digestFor q = some x)) with
  | some c =>
    have hdigest := List.find?_some hfind
    exact (hmem c).2 ⟨List.mem_of_find?_eq_some hfind, of_decide_eq_true hdigest⟩
  | none =>
    cases hf : found with
    | none => rfl
    | some c =>
      obtain ⟨hc, hx⟩ := (hmem c).1 hf
      exact absurd (decide_eq_true hx) (List.find?_eq_none.1 hfind c hc)

omit [DecidableEq D] in
theorem holds_reachable {files : Files A D (Claim D)} {root d : D} {E : Set (List A × Claim D)}
    (h : Holds (claimScheme p) files root [] E) (hd : ReachableNode p files root d) :
    ∃ expected E', Holds (claimScheme p) files d expected E' := by
  induction hd with
  | root => exact ⟨_, _, h⟩
  | child hd hread hchild ih =>
    obtain ⟨expected, E', hholds⟩ := ih
    cases hholds with
    | leaf read => cases hread.unique read
    | branch read start all below =>
      cases hread.unique read
      exact ⟨_, _, below _ _ hchild⟩

/-- **The replay index refines a finite map.**  In every history of insertions: a version answers every search with the
claim filed under the key, or none; an insertion is refused exactly for a key that is taken; versions and their answers
stay; branches have two to sixteen children that go on with their edges; and versions with the same claims, of this or
another history, have the same root. -/
theorem replay_index_refines_map (hp : CollisionFree p) (hhex : hex.card ≤ 16) {calls more : List (IndexCall D)}
    (hcalls : ∀ call ∈ calls, WellFormedClaim p hex call.claim)
    (hmore : ∀ call ∈ more, WellFormedClaim p hex call.claim) :
    (∀ v ∈ ((indexMachine p).final .start calls).versions, ∀ q x n,
      (find p q ⟨v.root, n⟩ x ((indexMachine p).final .start calls).disk []).1 =
        .ok (v.claims.find? (fun c => c.digestFor q = some x))) ∧
    (∀ base root claims c, WellFormedClaim p hex c →
      ((indexMachine p).final .start calls).baseOf base = some (root, claims) →
      ((∃ e, (insertClaim p root c ((indexMachine p).final .start calls).disk []).1 = .error e) ↔
        ∃ c' ∈ claims, c'.claimId = c.claimId ∨ c'.semanticDecisionDigest = c.semanticDecisionDigest)) ∧
    ((indexMachine p).final .start calls).versions <+: ((indexMachine p).final .start (calls ++ more)).versions ∧
    (∀ v ∈ ((indexMachine p).final .start calls).versions, ∀ q x n,
      (find p q ⟨v.root, n⟩ x ((indexMachine p).final .start (calls ++ more)).disk []).1 =
        (find p q ⟨v.root, n⟩ x ((indexMachine p).final .start calls).disk []).1) ∧
    (∀ v ∈ ((indexMachine p).final .start calls).versions, ∀ d letters children,
      ReachableNode p ((indexMachine p).final .start calls).disk.nodes v.root d →
      Reads (claimScheme p) ((indexMachine p).final .start calls).disk.nodes d (.branch letters children) →
      2 ≤ children.keys.card ∧ children.keys.card ≤ 16 ∧ ∀ a child, children.lookup a = some child →
        ∃ n, Reads (claimScheme p) ((indexMachine p).final .start calls).disk.nodes child n ∧
          letters ++ [a] <+: n.letters) ∧
    ∀ v ∈ ((indexMachine p).final .start calls).versions, ∀ v' ∈ ((indexMachine p).final .start more).versions,
      (∀ c, c ∈ v.claims ↔ c ∈ v'.claims) → v.root = v'.root := by
  obtain ⟨hi, -, -⟩ := indexMachine_final hp hhex indexInvariant_start hcalls
  obtain ⟨hi', -, -⟩ := indexMachine_final hp hhex indexInvariant_start hmore
  obtain ⟨-, hgrown, hversions⟩ := indexMachine_final hp hhex hi hmore
  rw [Machine.final_append]
  generalize (indexMachine p).final .start calls = h at *
  have hfind : ∀ v ∈ h.versions, ∀ q x n,
      (find p q ⟨v.root, n⟩ x h.disk []).1 = .ok (v.claims.find? (fun c => c.digestFor q = some x)) :=
    fun v hv => find_eq hp rfl (hi.holds v hv)
  refine ⟨hfind, ?_, hversions, ?_, ?_, ?_⟩
  · intro base root claims c hc hbase
    obtain ⟨hclaims, hroot⟩ := hi.base hbase
    obtain ⟨r, disk', hdoes, -, -, hrefused, -⟩ := insertClaim_does hp hhex hi.sound hclaims hroot hc
    simp only [Faulty.Does] at hdoes
    rw [hdoes, hrefused]
    refine exists_congr (fun c' => and_congr_right (fun _ => ?_))
    rw [Apart, not_and_or, not_not, not_not, eq_comm, @eq_comm _ c.semanticDecisionDigest]
  · intro v hv q x n
    rw [hfind v hv, find_eq hp rfl ((hi.holds v hv).mono hgrown)]
  · intro v hv d letters children hd hread
    obtain ⟨expected, E, hholds⟩ := holds_reachable (hi.holds v hv) hd
    have hvalid := hread.2.2
    simp only [Scheme.valid, Bool.and_eq_true, decide_eq_true_eq] at hvalid
    refine ⟨hvalid.1.2, hvalid.2, fun a child hchild => ?_⟩
    cases hholds with
    | leaf read => cases hread.unique read
    | branch read start all below =>
      cases hread.unique read
      exact (below a child hchild).reads
  · intro v hv v' hv' hsame
    have hentries : claimEntries p v.claims = claimEntries p v'.claims := by
      ext e
      simp only [claimEntries, Set.mem_ofPred_eq, hsame]
    have hholds := hi'.holds v' hv'
    rw [← hentries] at hholds
    exact (hi.holds v hv).unique hholds

def indexedClaim (id semantic : UInt8) : Claim Bytes := ⟨[id], [], some [semantic], false, none⟩

/-- The letters of the keys of two such claims: the ideal platform spells a digest with itself and blanks. -/
def idealLetters (id semantic id' semantic' : UInt8) : Finset Bytes :=
  {keyDomain ++ utf8 "claim" ++ [0] ++ [id], keyDomain ++ utf8 "semantic" ++ [0] ++ [semantic],
    keyDomain ++ utf8 "claim" ++ [0] ++ [id'], keyDomain ++ utf8 "semantic" ++ [0] ++ [semantic'], []}

theorem wellFormed_indexedClaim {id semantic : UInt8} {hex : Finset Bytes} (hblank : [] ∈ hex)
    (hclaim : keyDomain ++ utf8 "claim" ++ [0] ++ [id] ∈ hex)
    (hsemantic : keyDomain ++ utf8 "semantic" ++ [0] ++ [semantic] ∈ hex) :
    WellFormedClaim idealPlatform.toPlatform hex (indexedClaim id semantic) := by
  refine ⟨rfl, nofun, fun q x hx a ha => ?_⟩
  have hletters : a = keyDomain ++ utf8 q.text ++ [0] ++ x ∨ a = [] := by
    rcases List.mem_cons.1 ha with h | h
    · exact .inl h
    · exact .inr (List.eq_of_mem_replicate h)
  rcases hletters with rfl | rfl
  · cases q <;> cases hx
    · exact hclaim
    · exact hsemantic
  · exact hblank

/-- A claim with new keys makes a version. -/
theorem version_of_new (hp : CollisionFree p) (hhex : hex.card ≤ 16) {h : IndexHistory A D}
    (hi : IndexInvariant p hex h) (call : IndexCall D) (hcall : WellFormedClaim p hex call.claim) {root : Option D}
    (hbase : h.baseOf call.base = some (root, claims)) (hnew : ∀ c ∈ claims, Apart call.claim c) :
    ∃ d, ((indexMachine p).step h call).1.versions = h.versions ++ [⟨d, call.claim :: claims⟩] := by
  obtain ⟨hclaims, hroot⟩ := hi.base hbase
  obtain ⟨r, disk', hdoes, -, -, hrefused, -⟩ := insertClaim_does hp hhex hi.sound hclaims hroot hcall
  simp only [Faulty.Does] at hdoes
  simp only [indexMachine, hbase, hdoes]
  cases r with
  | ok d => exact ⟨d, rfl⟩
  | error e =>
    obtain ⟨c, hc, hclash⟩ := hrefused.1 ⟨e, rfl⟩
    exact absurd (hnew c hc) hclash

theorem two_versions (hp : CollisionFree p) (hhex : hex.card ≤ 16) {c c' : Claim D} (hc : WellFormedClaim p hex c)
    (hc' : WellFormedClaim p hex c') (hapart : Apart c' c) :
    ∃ v ∈ ((indexMachine p).final .start [⟨none, c⟩, ⟨some 0, c'⟩]).versions, v.claims = [c', c] := by
  obtain ⟨d, hfirst⟩ := version_of_new hp hhex indexInvariant_start ⟨none, c⟩ hc rfl nofun
  obtain ⟨hi, -, -⟩ := indexMachine_step hp hhex indexInvariant_start
    (show WellFormedClaim p hex (⟨none, c⟩ : IndexCall D).claim from hc)
  have hbase : ((indexMachine p).step .start ⟨none, c⟩).1.baseOf (some 0) = some (some d, [c]) := by
    rw [IndexHistory.baseOf, hfirst]
    rfl
  obtain ⟨d', hsecond⟩ := version_of_new hp hhex hi ⟨some 0, c'⟩ hc' hbase (by simpa using hapart)
  refine ⟨⟨d', [c', c]⟩, ?_, rfl⟩
  show _ ∈ ((indexMachine p).step ((indexMachine p).step .start ⟨none, c⟩).1 ⟨some 0, c'⟩).1.versions
  rw [hsecond]
  exact List.mem_concat_self

/-- Two claims in either order come to one root. -/
theorem two_orders_one_root :
    ∃ v ∈ ((indexMachine idealPlatform.toPlatform).final .start
        [⟨none, indexedClaim 1 2⟩, ⟨some 0, indexedClaim 3 4⟩]).versions,
      ∃ v' ∈ ((indexMachine idealPlatform.toPlatform).final .start
        [⟨none, indexedClaim 3 4⟩, ⟨some 0, indexedClaim 1 2⟩]).versions,
      v.claims = [indexedClaim 3 4, indexedClaim 1 2] ∧ v'.claims = [indexedClaim 1 2, indexedClaim 3 4] ∧
        v.root = v'.root := by
  have hfirst : WellFormedClaim idealPlatform.toPlatform (idealLetters 1 2 3 4) (indexedClaim 1 2) :=
    wellFormed_indexedClaim (by simp [idealLetters]) (by simp [idealLetters]) (by simp [idealLetters])
  have hsecond : WellFormedClaim idealPlatform.toPlatform (idealLetters 1 2 3 4) (indexedClaim 3 4) :=
    wellFormed_indexedClaim (by simp [idealLetters]) (by simp [idealLetters]) (by simp [idealLetters])
  have hcard : (idealLetters 1 2 3 4).card ≤ 16 := Nat.le_trans Finset.card_le_five (by decide)
  obtain ⟨v, hv, hclaims⟩ := two_versions collisionFree_idealPlatform hcard hfirst hsecond ⟨by decide, by decide⟩
  obtain ⟨v', hv', hclaims'⟩ := two_versions collisionFree_idealPlatform hcard hsecond hfirst ⟨by decide, by decide⟩
  refine ⟨v, hv, v', hv', hclaims, hclaims', ?_⟩
  refine (replay_index_refines_map collisionFree_idealPlatform hcard (by simp [hfirst, hsecond])
    (by simp [hfirst, hsecond])).2.2.2.2.2 v hv v' hv' fun c => ?_
  rw [hclaims, hclaims']
  simp [or_comm]

end
end Guard.WorkspaceReview
