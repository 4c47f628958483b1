import HolGuard.WorkspaceReview.AuthorityChain
import HolGuard.WorkspaceReview.Decision
/-!
# A decision is granted once

A claim is `Held` under its id or under its semantic digest when it is in the inline list or filed in the index.  Every
call, wherever it stops, keeps what is held and raises the time floor (`Keeps`); a call that grants finds neither key
held and leaves both held, and a call that resumes finds the claim held with the same semantic digest.
-/
namespace Guard.WorkspaceReview

open Lib
open Lib.Faulty (Runs after_bind after_fail after_lift after_pure after_write)
open Lib.DigestTrie (Files Grown runs_insertNode)

section

variable {A D : Type} [DecidableEq A] [DecidableEq D]

/-- **The digests are collision-free**, and the texts they are taken of say what they are the texts of. -/
structure CollisionFree (p : Platform A D) : Prop where
  digest : Function.Injective p.digest
  digestText : Function.Injective p.digestText
  nodeText : Function.Injective p.nodeText

variable {p : Platform A D} {q : Purpose} {c : Claim D} {d d' : Disk A D} {s : SecureState D}

/-! ## Filing -/

omit [DecidableEq A] [DecidableEq D] in
theorem indexKey_injective (hp : CollisionFree p) {q' : Purpose} {x x' : D}
    (h : indexKey p q x = indexKey p q' x') : q = q' ∧ x = x' := by
  have htext := hp.digest (p.letters_injective h)
  rw [List.append_assoc, List.append_assoc, List.append_assoc, List.append_assoc, List.append_cancel_left_eq] at htext
  have hclaim : utf8 "claim" = [99, 108, 97, 105, 109] := by decide
  have hsemantic : utf8 "semantic" = [115, 101, 109, 97, 110, 116, 105, 99] := by decide
  cases q <;> cases q' <;> simp only [Purpose.text, hclaim, hsemantic] at htext
  · exact ⟨rfl, hp.digestText (by simpa using htext)⟩
  · simp at htext
  · simp at htext
  · exact ⟨rfl, hp.digestText (by simpa using htext)⟩

omit [DecidableEq D] in
theorem claimScheme_digest_injective (hp : CollisionFree p) : Function.Injective (claimScheme p).digest := by
  intro n m h
  exact hp.nodeText (List.append_cancel_left (hp.digest h))

/-- The index holds the claim under this digest. -/
def Filed (p : Platform A D) (files : Files A D (Claim D)) (root : D) (q : Purpose) (x : D) (c : Claim D) :
    Prop :=
  (claimScheme p).lookup files root (indexKey p q x) = .ok (some c)

theorem Filed.digestFor (hp : CollisionFree p) {files : Files A D (Claim D)} {root : D}
    {x : D} (h : Filed p files root q x c) : c.digestFor q = some x := by
  have hvalid := DigestTrie.validLeaf_of_lookup h
  simp only [claimScheme, validLeaf, Bool.and_eq_true, Bool.or_eq_true, decide_eq_true_eq] at hvalid
  obtain ⟨-, hkey | hsemantic⟩ := hvalid
  · obtain ⟨rfl, rfl⟩ := indexKey_injective hp hkey
    rfl
  · obtain ⟨d, hd, hkey⟩ := (Option.any_eq_true _ _).1 hsemantic
    obtain ⟨rfl, rfl⟩ := indexKey_injective hp (of_decide_eq_true hkey)
    exact hd

/-- **What the insertion of a claim does to the index.** -/
structure Adds (p : Platform A D) (f f' : Files A D (Claim D)) (root : Option D) (root' : D) (c : Claim D) :
    Prop where
  own : ∀ q, ∃ x, Filed p f' root' q x c
  kept : ∀ q x c₀ r, root = some r → Filed p f r q x c₀ → Filed p f' root' q x c₀

theorem filed_of_inserted {f f' : Files A D (Claim D)} {key : List A} {c₀ : Claim D}
    {r d : D} {x : D} (h : DigestTrie.Inserted (claimScheme p) f f' key c [] (some r) d)
    (hfiled : Filed p f r q x c₀) : Filed p f' d q x c₀ := by
  by_cases hkey : indexKey p q x = key
  · subst hkey
    cases h.lookup_fresh hfiled
  · refine h.lookup_other hkey (p.length_letters _) (fun e he => ?_) nofun
    obtain rfl := Option.some.inj he
    exact hfiled

omit [DecidableEq A] [DecidableEq D] in
theorem runs_onNodes {α : Type} {c : Faulty (Files A D (Claim D)) α}
    {r : Except String α} (h : Runs (onNodes c) d r d') :
    Runs c d.nodes r d'.nodes ∧ d'.secure = d.secure := by
  obtain ⟨nodes, hrun, rfl⟩ := Faulty.runs_zoom h
  exact ⟨hrun, rfl⟩

theorem runs_insertClaim (hp : CollisionFree p) {root : Option D} {r : Except String D}
    (h : Runs (insertClaim p root c) d r d') :
    Grown d.nodes d'.nodes ∧ d'.secure = d.secure ∧
      ∀ root', r = .ok root' → Adds p d.nodes d'.nodes root root' c := by
  have hinj := claimScheme_digest_injective hp
  unfold insertClaim at h
  split at h
  · exact after_fail h ⟨.refl _, rfl, by simp⟩
  rename_i semantic _
  refine after_bind h (fun e t hfirst => ?_) fun claimRoot t hfirst hsecond => ?_ <;>
    obtain ⟨hrun₁, hsecure₁⟩ := runs_onNodes hfirst <;>
    obtain ⟨hgrown₁, hok₁⟩ := runs_insertNode (Nat.zero_le _) hrun₁
  · exact ⟨hgrown₁, hsecure₁, by simp⟩
  obtain ⟨hrun₂, hsecure₂⟩ := runs_onNodes hsecond
  obtain ⟨hgrown₂, hok₂⟩ := runs_insertNode (Nat.zero_le _) hrun₂
  refine ⟨hgrown₁.trans hgrown₂, hsecure₂.trans hsecure₁, fun root' hroot' => ?_⟩
  have hclaim := hok₁ claimRoot rfl hinj
  have hboth := hok₂ root' hroot' hinj
  refine ⟨fun q => ?_, fun q x c₀ r hr hfiled => ?_⟩
  · cases q with
    | claim => exact ⟨c.claimId, filed_of_inserted hboth hclaim.lookup_key⟩
    | semantic => exact ⟨semantic, hboth.lookup_key⟩
  · subst hr
    exact filed_of_inserted hboth (filed_of_inserted hclaim hfiled)

theorem runs_addClaim (hp : CollisionFree p) {place : Option D × Nat}
    {r : Except String (Option D × Nat)} (h : Runs (addClaim p place c) d r d') :
    Grown d.nodes d'.nodes ∧ d'.secure = d.secure ∧
      ∀ place', r = .ok place' → ∃ root, place'.1 = some root ∧ Adds p d.nodes d'.nodes place.1 root c := by
  refine after_bind h (fun e t hinsert => ?_) fun root t hinsert h => ?_ <;>
    obtain ⟨hgrown, hsecure, hadds⟩ := runs_insertClaim hp hinsert
  · exact ⟨hgrown, hsecure, nofun⟩
  split at h
  · refine after_pure h ⟨hgrown, hsecure, fun place' hplace' => ⟨root, ?_, hadds root rfl⟩⟩
    rw [← Except.ok.inj hplace']
  · exact after_fail h ⟨hgrown, hsecure, nofun⟩

omit [DecidableEq D] in
theorem takeMigrated_eq_some : ∀ {cs : List (Claim D)} {m : Claim D} {rest : List (Claim D)},
    takeMigrated cs = some (m, rest) → ∀ c, c ∈ cs ↔ c = m ∨ c ∈ rest
  | [], m, rest, h => by cases h
  | c₀ :: cs, m, rest, h => by
    unfold takeMigrated at h
    split at h
    · rename_i m' rest' htail
      cases h
      intro c
      rw [List.mem_cons, takeMigrated_eq_some htail c, List.mem_cons]
      tauto
    · split at h
      · cases h
        exact fun c => List.mem_cons
      · cases h

/-! ## Holding -/

/-- **The claim is held**: it is in the inline list, or the index has it under its id or its semantic digest. -/
def Held (p : Platform A D) (d : Disk A D) (q : Purpose) (c : Claim D) : Prop :=
  ∃ s, d.secure = some s ∧
    (c ∈ s.consumedClaims ∨ ∃ anchor x, s.claimIndex = some anchor ∧ Filed p d.nodes anchor.root q x c)

def Taken (p : Platform A D) (d : Disk A D) (q : Purpose) (x : D) : Prop := ∃ c, Held p d q c ∧ c.digestFor q = some x

def Disk.floor (d : Disk A D) : Nat := d.secure.elim 0 SecureState.lastObservedTimeMs

/-- **What every call keeps**, wherever it stops. -/
structure Keeps (p : Platform A D) (d d' : Disk A D) : Prop where
  held : ∀ q c, Held p d q c → Held p d' q c
  inline : ∀ s', d'.secure = some s' → ∀ c ∈ s'.consumedClaims, ∃ s, d.secure = some s ∧ c ∈ s.consumedClaims
  floor : d.floor ≤ d'.floor

theorem Keeps.trans {d'' : Disk A D} (h : Keeps p d d') (h' : Keeps p d' d'') : Keeps p d d'' where
  held q c hc := h'.held q c (h.held q c hc)
  inline s'' hs'' c hc := by
    obtain ⟨s', hs', hc'⟩ := h'.inline s'' hs'' c hc
    exact h.inline s' hs' c hc'
  floor := h.floor.trans h'.floor

/-- The evidence is the same and the time floor is not lower. -/
structure SameEvidence (d d' : Disk A D) : Prop where
  nodes : d'.nodes = d.nodes
  state : ∀ s, d.secure = some s → ∃ s', d'.secure = some s' ∧ s'.consumedClaims = s.consumedClaims ∧
    s'.claimIndex = s.claimIndex ∧ s.lastObservedTimeMs ≤ s'.lastObservedTimeMs

omit [DecidableEq A] [DecidableEq D] in
theorem SameEvidence.refl (d : Disk A D) : SameEvidence d d := ⟨rfl, fun s hs => ⟨s, hs, rfl, rfl, le_rfl⟩⟩

omit [DecidableEq A] [DecidableEq D] in
theorem SameEvidence.trans {d'' : Disk A D} (h : SameEvidence d d') (h' : SameEvidence d' d'') :
    SameEvidence d d'' := by
  refine ⟨h'.nodes.trans h.nodes, fun s hs => ?_⟩
  obtain ⟨s', hs', hclaims, hindex, hfloor⟩ := h.state s hs
  obtain ⟨s'', hs'', hclaims', hindex', hfloor'⟩ := h'.state s' hs'
  exact ⟨s'', hs'', hclaims'.trans hclaims, hindex'.trans hindex, hfloor.trans hfloor'⟩

theorem SameEvidence.held_iff (h : SameEvidence d d') (hs : d.secure = some s) (q : Purpose)
    (c : Claim D) : Held p d' q c ↔ Held p d q c := by
  obtain ⟨s', hs', hclaims, hindex, -⟩ := h.state s hs
  simp only [Held, hs, hs', Option.some.injEq, exists_eq_left', hclaims, hindex, h.nodes]

theorem SameEvidence.keeps (h : SameEvidence d d') (hs : d.secure = some s) : Keeps p d d' := by
  obtain ⟨s', hs', hclaims, -, hfloor⟩ := h.state s hs
  refine ⟨fun q c => (h.held_iff hs q c).2, fun t ht c hc => ⟨s, hs, ?_⟩, ?_⟩
  · obtain rfl := Option.some.inj (hs'.symm.trans ht)
    exact hclaims ▸ hc
  · simp only [Disk.floor, hs, hs', Option.elim_some]
    exact hfloor

omit [DecidableEq A] in
theorem Moves.sameEvidence (h : Moves p d d') : SameEvidence d d' := by
  have hfollows := h.follows
  refine ⟨h.nodes, fun t ht => ?_⟩
  rw [ht] at hfollows
  cases hs' : d'.secure with
  | none => rw [hs'] at hfollows; exact hfollows.elim
  | some s' =>
    rw [hs'] at hfollows
    exact ⟨s', rfl, hfollows.1.claims, hfollows.1.index, hfollows.1.floor.ge⟩

theorem Moves.keeps (h : Moves p d d') : Keeps p d d' := by
  cases hs : d.secure with
  | some s => exact h.sameEvidence.keeps hs
  | none =>
    refine ⟨fun q c hc => ?_, fun s' hs' c hc => ?_, ?_⟩
    · obtain ⟨s, hs', -⟩ := hc
      rw [hs] at hs'
      cases hs'
    · have hfollows := h.follows
      rw [hs, hs'] at hfollows
      rw [hfollows.2.2.claims] at hc
      cases hc
    · simp [Disk.floor, hs]

/-! ## Recording -/

theorem keeps_of_grown (hgrown : Grown d.nodes d'.nodes) (hsecure : d'.secure = d.secure) :
    Keeps p d d' := by
  refine ⟨fun q c hc => ?_, fun s' hs' c hc => ⟨s', hsecure ▸ hs', hc⟩, ?_⟩
  · obtain ⟨s', hs', hmem | ⟨anchor, x, hindex, hfiled⟩⟩ := hc
    · exact ⟨s', hsecure.trans hs', .inl hmem⟩
    · exact ⟨s', hsecure.trans hs', .inr ⟨anchor, x, hindex, DigestTrie.lookup_mono hgrown hfiled⟩⟩
  · simp [Disk.floor, hsecure]

def SecureState.remaining (s : SecureState D) : List (Claim D) :=
  ((takeMigrated s.consumedClaims).map Prod.snd).getD s.consumedClaims

omit [DecidableEq D] in
theorem mem_of_mem_remaining (h : c ∈ s.remaining) : c ∈ s.consumedClaims := by
  unfold SecureState.remaining at h
  cases htake : takeMigrated s.consumedClaims with
  | none => simpa [htake] using h
  | some taken =>
    rw [htake] at h
    exact (takeMigrated_eq_some htake c).2 (.inr h)

/-- **The migration**: what the index had is still filed, and a claim of the list is left in it or filed. -/
theorem runs_addMigrated (hp : CollisionFree p) {r : Except String (Option D × Nat)}
    (h : Runs (addMigrated p s.indexPlace (takeMigrated s.consumedClaims)) d r d') :
    Grown d.nodes d'.nodes ∧ d'.secure = d.secure ∧ ∀ place, r = .ok place →
      (∀ q x c anchor, s.claimIndex = some anchor → Filed p d.nodes anchor.root q x c →
        ∃ root, place.1 = some root ∧ Filed p d'.nodes root q x c) ∧
      ∀ c ∈ s.consumedClaims, c ∈ s.remaining ∨ ∃ root, place.1 = some root ∧
        ∀ q, ∃ x, Filed p d'.nodes root q x c := by
  unfold SecureState.remaining
  cases htake : takeMigrated s.consumedClaims with
  | none =>
    rw [htake] at h
    refine after_pure h ⟨.refl _, rfl, fun place hplace => ?_⟩
    cases hplace
    refine ⟨fun q x c anchor hindex hfiled => ⟨anchor.root, ?_, hfiled⟩, fun c hc => .inl hc⟩
    simp [SecureState.indexPlace, hindex]
  | some taken =>
    obtain ⟨m, rest⟩ := taken
    rw [htake] at h
    obtain ⟨hgrown, hsecure, hok⟩ := runs_addClaim hp h
    refine ⟨hgrown, hsecure, fun place hplace => ?_⟩
    obtain ⟨root, hroot, hadds⟩ := hok place hplace
    refine ⟨fun q x c anchor hindex hfiled => ⟨root, hroot, hadds.kept q x c anchor.root ?_ hfiled⟩, fun c hc => ?_⟩
    · simp [SecureState.indexPlace, hindex]
    · obtain rfl | hrest := (takeMigrated_eq_some htake c).1 hc
      · exact .inr ⟨root, hroot, hadds.own⟩
      · exact .inl hrest

/-- **Recording a claim**: nothing is committed, or the claim is held under both its digests. -/
theorem runs_recordClaim (hp : CollisionFree p) {r : Except String Unit} (hs : d.secure = some s)
    (h : Runs (recordClaim p s c) d r d') :
    Keeps p d d' ∧ (r = .ok () → ∀ q, Held p d' q c) := by
  refine after_bind h (fun e d₁ hmove => ?_) fun moved d₁ hmove h => ?_ <;>
    obtain ⟨hgrown₁, hsecure₁, hok₁⟩ := runs_addMigrated hp hmove
  · exact ⟨keeps_of_grown hgrown₁ hsecure₁, nofun⟩
  obtain ⟨hindexed, hinline⟩ := hok₁ moved rfl
  refine after_bind h (fun e d₂ hclaim => ?_) fun added d₂ hclaim h => ?_ <;>
    obtain ⟨hgrown₂, hsecure₂, hok₂⟩ := runs_addClaim hp hclaim <;>
    have huncommitted : Keeps p d d₂ := keeps_of_grown (hgrown₁.trans hgrown₂) (hsecure₂.trans hsecure₁)
  · exact ⟨huncommitted, nofun⟩
  obtain ⟨root, hroot, hadds⟩ := hok₂ added rfl
  refine after_write h ⟨huncommitted, nofun⟩ ⟨huncommitted, nofun⟩ fun h => ?_
  rw [hroot] at h
  obtain ⟨rfl, hne⟩ | rfl := runs_storeSecure h
  · exact ⟨huncommitted, fun hr => absurd hr hne⟩
  -- the commit: both representations at once
  refine ⟨⟨fun q c₀ hc₀ => ⟨_, rfl, ?_⟩, fun s' hs' c₀ hc₀ => ⟨s, hs, ?_⟩, ?_⟩, fun _ q => ?_⟩
  · obtain ⟨s', hs', hc₀⟩ := hc₀
    obtain rfl := Option.some.inj (hs.symm.trans hs')
    obtain hmem | ⟨anchor, x, hindex, hfiled⟩ := hc₀
    · obtain hrest | ⟨mroot, hmroot, hboth⟩ := hinline c₀ hmem
      · exact .inl hrest
      · obtain ⟨x, hx⟩ := hboth q
        exact .inr ⟨_, x, rfl, hadds.kept q x c₀ mroot hmroot hx⟩
    · obtain ⟨mroot, hmroot, hfiled₁⟩ := hindexed q x c₀ anchor hindex hfiled
      exact .inr ⟨_, x, rfl, hadds.kept q x c₀ mroot hmroot hfiled₁⟩
  · obtain rfl := Option.some.inj hs'
    exact mem_of_mem_remaining hc₀
  · simp [Disk.floor, hs, SecureState.withClaims]
  · obtain ⟨x, hx⟩ := hadds.own q
    exact ⟨_, rfl, .inr ⟨_, x, rfl, hx⟩⟩

/-! ## Consuming -/

theorem runs_find {anchor : ClaimIndexAnchor D} {x : D} {r : Except String (Option (Claim D))}
    (h : Runs (find p q anchor x) d r d') :
    r = (claimScheme p).lookup d.nodes anchor.root (indexKey p q x) ∧ d' = d :=
  Faulty.runs_lift (Faulty.runs_get_bind h)

@[elab_as_elim]
theorem after_find {β : Type} {P : Except String β → Disk A D → Prop} {anchor : ClaimIndexAnchor D} {x : D}
    {f : Option (Claim D) → Session A D β} {r : Except String β} (h : Runs (find p q anchor x >>= f) d r d')
    (stop : ∀ e, P (.error e) d)
    (go : ∀ found, (claimScheme p).lookup d.nodes anchor.root (indexKey p q x) = .ok found → Runs (f found) d r d' →
      P r d') :
    P r d' := by
  refine after_bind h (fun e t hfind => ?_) fun found t hfind hrest => ?_ <;> obtain ⟨hlookup, rfl⟩ := runs_find hfind
  · exact stop e
  · exact go found hlookup.symm hrest

end

section

variable {A D : Type} [DecidableEq A] [DecidableEq D] {p : DecisionPlatform A D}
variable {q : Purpose} {c : Claim D} {d d' : Disk A D} {s : SecureState D}

variable {semantic : D}

theorem semantic_of_resumes {v : VerifiedDecision D} (h : c.resumes v semantic = true) :
    c.semanticDecisionDigest = some semantic := by
  simp only [Claim.resumes, Bool.and_eq_true, decide_eq_true_eq] at h
  exact h.1

theorem runs_consumeIndexed {index : Option (ClaimIndexAnchor D)} {v : VerifiedDecision D}
    {r : Except String Bool} (h : Runs (consumeIndexed p index v semantic) d r d') :
    d' = d ∧
      (r = .ok true → ∃ anchor c, index = some anchor ∧ Filed p.toPlatform d.nodes anchor.root .claim v.claimId c ∧
        c.semanticDecisionDigest = some semantic) ∧
      (r = .ok false → ∀ anchor c, index = some anchor →
        ¬ Filed p.toPlatform d.nodes anchor.root .claim v.claimId c ∧
          ¬ Filed p.toPlatform d.nodes anchor.root .semantic semantic c) := by
  unfold consumeIndexed at h
  split at h
  · exact after_pure h ⟨rfl, nofun, nofun⟩
  rename_i anchor
  refine after_find h (fun _ => ⟨rfl, nofun, nofun⟩) fun claim hclaim h => ?_
  split at h
  · rename_i claim
    split at h
    · rename_i hresumes
      refine after_find h (fun _ => ⟨rfl, nofun, nofun⟩) fun other _ h => ?_
      split at h
      · exact after_fail h ⟨rfl, nofun, nofun⟩
      · exact after_pure h ⟨rfl, fun _ => ⟨anchor, claim, rfl, hclaim, semantic_of_resumes hresumes⟩, nofun⟩
    · exact after_fail h ⟨rfl, nofun, nofun⟩
  · refine after_find h (fun _ => ⟨rfl, nofun, nofun⟩) fun other hother h => ?_
    split at h
    · exact after_fail h ⟨rfl, nofun, nofun⟩
    · rename_i hnone
      refine after_pure h ⟨rfl, nofun, fun _ anchor' c hanchor => ?_⟩
      obtain rfl := Option.some.inj hanchor
      refine ⟨fun hfiled => ?_, fun hfiled => ?_⟩
      · cases hclaim.symm.trans hfiled
      · cases hother.symm.trans hfiled
        exact hnone rfl

/-- Every claim of the inline list has a semantic digest. -/
def AllSemantic (d : Disk A D) : Prop :=
  ∀ s, d.secure = some s → ∀ c ∈ s.consumedClaims, c.semanticDecisionDigest.isSome = true

omit [DecidableEq A] in
theorem runs_consumeInline {v : VerifiedDecision D} {r : Except String Bool}
    (hall : ∀ c ∈ s.consumedClaims, c.semanticDecisionDigest.isSome = true)
    (h : Runs (consumeInline p s v semantic) d r d') :
    d' = d ∧
      (r = .ok true → ∃ c ∈ s.consumedClaims, c.claimId = v.claimId ∧ c.semanticDecisionDigest = some semantic) ∧
      (r = .ok false → ∀ c ∈ s.consumedClaims, c.claimId ≠ v.claimId ∧ c.semanticDecisionDigest ≠ some semantic) := by
  unfold consumeInline at h
  split at h
  · rename_i claim hfind
    have hmem : claim ∈ s.consumedClaims := List.mem_of_find?_eq_some hfind
    have hid : claim.claimId = v.claimId := by simpa using List.find?_some hfind
    split at h
    · rename_i hresumes
      exact after_pure h ⟨rfl, fun _ => ⟨claim, hmem, hid, semantic_of_resumes hresumes⟩, nofun⟩
    · split at h
      · -- a claim from before semantic digests: there is none
        rename_i hlegacy
        have hsome := hall claim hmem
        rw [hlegacy.1] at hsome
        cases hsome
      · exact after_fail h ⟨rfl, nofun, nofun⟩
  · rename_i hfind
    split at h
    · exact after_fail h ⟨rfl, nofun, nofun⟩
    · rename_i hany
      refine after_pure h ⟨rfl, nofun, fun _ c hc => ⟨?_, ?_⟩⟩
      · simpa using List.find?_eq_none.1 hfind c hc
      · simp only [List.any_eq_true, not_exists, not_and, decide_eq_true_eq] at hany
        exact hany c hc

/-- **What the test for a claim says**: one that is resumed is held with this semantic digest, and for a new one
neither digest is taken. -/
theorem runs_consumeOrReplayClaim (hp : CollisionFree p.toPlatform) {v : VerifiedDecision D}
    {r : Except String Bool} (hs : d.secure = some s) (hall : AllSemantic d)
    (h : Runs (consumeOrReplayClaim p s v semantic) d r d') :
    d' = d ∧
      (r = .ok true → ∃ c, Held p.toPlatform d .claim c ∧ c.claimId = v.claimId ∧
        c.semanticDecisionDigest = some semantic) ∧
      (r = .ok false → ¬ Taken p.toPlatform d .claim v.claimId ∧ ¬ Taken p.toPlatform d .semantic semantic) := by
  refine after_bind h (fun e t hindexed => ?_) fun found t hindexed hrest => ?_ <;>
    obtain ⟨rfl, htrue, hfalse⟩ := runs_consumeIndexed hindexed
  · exact ⟨rfl, nofun, nofun⟩
  split at hrest
  · rename_i hfound
    subst hfound
    refine after_pure hrest ⟨rfl, fun _ => ?_, nofun⟩
    obtain ⟨anchor, c, hindex, hfiled, hsemantic⟩ := htrue rfl
    exact ⟨c, ⟨s, hs, .inr ⟨anchor, _, hindex, hfiled⟩⟩, Option.some.inj (hfiled.digestFor hp), hsemantic⟩
  · rename_i hfound
    simp only [Bool.not_eq_true] at hfound
    subst hfound
    obtain ⟨rfl, hinline, hnone⟩ := runs_consumeInline (hall s hs) hrest
    refine ⟨rfl, fun hr => ?_, fun hr => ?_⟩
    · obtain ⟨c, hc, hid, hsemantic⟩ := hinline hr
      exact ⟨c, ⟨s, hs, .inl hc⟩, hid, hsemantic⟩
    · -- a claim held for one of the digests would have been found
      have hfree : ∀ q x c, Held p.toPlatform d' q c → c.digestFor q = some x →
          (q = .claim → x ≠ v.claimId) ∧ (q = .semantic → x ≠ semantic) := by
        rintro q x c ⟨s', hs', hc⟩ hx
        obtain rfl := Option.some.inj (hs.symm.trans hs')
        obtain hmem | ⟨anchor, y, hindex, hfiled⟩ := hc
        · obtain ⟨hid, hsemantic⟩ := hnone hr c hmem
          refine ⟨?_, ?_⟩
          · rintro rfl rfl
            exact hid (Option.some.inj hx)
          · rintro rfl rfl
            exact hsemantic hx
        · obtain rfl := Option.some.inj ((hfiled.digestFor hp).symm.trans hx)
          obtain ⟨hclaim, hsemantic⟩ := hfalse rfl anchor c hindex
          refine ⟨?_, ?_⟩
          · rintro rfl rfl
            exact hclaim hfiled
          · rintro rfl rfl
            exact hsemantic hfiled
      refine ⟨?_, ?_⟩
      · rintro ⟨c, hc, hx⟩
        exact (hfree .claim v.claimId c hc hx).1 rfl rfl
      · rintro ⟨c, hc, hx⟩
        exact (hfree .semantic semantic c hc hx).2 rfl rfl

/-! ## The call -/

variable {nowMs : Nat}

omit [DecidableEq A] in
theorem runs_observeTime {r : Except String Unit} (hs : d.secure = some s)
    (h : Runs (observeTime p s nowMs) d r d') : SameEvidence d d' := by
  simp only [observeTime] at h
  split at h
  · exact after_fail h (.refl _)
  rename_i hrollback
  split at h
  · refine after_lift h (fun _ _ => .refl _) fun _ _ h => ?_
    obtain ⟨rfl, -⟩ | rfl := runs_storeSecure h
    · exact .refl _
    · refine ⟨rfl, fun s' hs' => ?_⟩
      obtain rfl := Option.some.inj (hs.symm.trans hs')
      refine ⟨_, rfl, rfl, rfl, ?_⟩
      -- a floor that is set is the one compared with the clock
      unfold migratedFloor at hrollback
      simp only [SecureState.withFloor]
      split at hrollback <;> omega
  · exact after_pure h (.refl _)

/-- **What an answer to a call means**, from the disk before to the disk after it. -/
structure Answers (p : DecisionPlatform A D) (d d' : Disk A D) (semantic : D) (v : VerifiedDecision D) : Prop where
  resumed : v.replayed = true → ∃ c, Held p.toPlatform d .claim c ∧ c.claimId = v.claimId ∧
    c.semanticDecisionDigest = some semantic
  granted : v.replayed = false →
    (¬ Taken p.toPlatform d .claim v.claimId ∧ ¬ Taken p.toPlatform d .semantic semantic) ∧
      Taken p.toPlatform d' .claim v.claimId ∧ Taken p.toPlatform d' .semantic semantic

omit [DecidableEq A] in
theorem replayed_of_verifyEnvelope {raw : DecisionEnvelope (Hex D)} {v : VerifiedAuthority D}
    {context : DecisionContext (Hex D)} {verified : VerifiedDecision D}
    (h : verifyEnvelope p raw v context nowMs = .ok verified) : verified.replayed = false := by
  unfold verifyEnvelope at h
  repeat' split at h
  all_goals cases h
  rfl

theorem runs_claimDecision (hp : CollisionFree p.toPlatform) {v : VerifiedAuthority D}
    {envelope : DecisionEnvelope (Hex D)} {context : DecisionContext (Hex D)}
    {r : Except String (VerifiedDecision D)} (hs : d.secure = some s) (hall : AllSemantic d)
    (h : Runs (claimDecision p s v envelope context nowMs) d r d') :
    Keeps p.toPlatform d d' ∧ ∀ verified, r = .ok verified →
      Answers p d d' (semanticDecisionDigest p envelope) verified := by
  have hrefl : Keeps p.toPlatform d d := (SameEvidence.refl d).keeps hs
  refine after_lift h (fun _ _ => ⟨hrefl, nofun⟩) fun verified hverify h => ?_
  have hnew := replayed_of_verifyEnvelope hverify
  refine after_bind h (fun e t hconsume => ?_) fun resumed t hconsume hlast => ?_ <;>
    obtain ⟨rfl, htrue, hfalse⟩ := runs_consumeOrReplayClaim hp hs hall hconsume
  · exact ⟨hrefl, nofun⟩
  split at hlast
  · rename_i hresumed
    subst hresumed
    refine after_pure hlast ⟨hrefl, fun answer hanswer => ?_⟩
    cases hanswer
    exact ⟨fun _ => htrue rfl, nofun⟩
  · rename_i hresumed
    simp only [Bool.not_eq_true] at hresumed
    subst hresumed
    refine after_bind hlast (fun e t hrecord => ?_) fun _ t hrecord h => ?_ <;>
      obtain ⟨hkeeps, hheld⟩ := runs_recordClaim hp hs hrecord
    · exact ⟨hkeeps, nofun⟩
    refine after_pure h ⟨hkeeps, fun answer hanswer => ?_⟩
    cases hanswer
    refine ⟨fun hreplayed => ?_, fun _ => ⟨hfalse rfl, ⟨_, hheld rfl .claim, rfl⟩, ⟨_, hheld rfl .semantic, rfl⟩⟩⟩
    cases hnew.symm.trans hreplayed

/-- **A call**, wherever it stops, and what it has done when it answers. -/
theorem runs_verifyAndClaimAt (hp : CollisionFree p.toPlatform) {locals : LocalBindings D}
    {envelope : DecisionEnvelope (Hex D)} {context : DecisionContext (Hex D)}
    {r : Except String (VerifiedDecision D)} (hall : AllSemantic d)
    (h : Runs (verifyAndClaimAt p locals envelope context nowMs) d r d') :
    Keeps p.toPlatform d d' ∧ ∀ verified, r = .ok verified →
      Answers p d d' (semanticDecisionDigest p envelope) verified := by
  refine after_loadSecure h (fun _ => ⟨(Moves.refl _).keeps, by simp⟩) fun h => ?_
  split at h
  · exact after_fail h ⟨(Moves.refl _).keeps, by simp⟩
  rename_i s hs
  -- until the claim is recorded the evidence stays as it was found
  refine after_bind h (fun e t htime => ?_) fun _ d₂ htime h => ?_
  · exact ⟨(runs_observeTime hs htime).keeps hs, by simp⟩
  have hsame₂ : SameEvidence d d₂ := runs_observeTime hs htime
  refine after_bind h (fun e d₃ hload => ?_) fun authority d₃ hload h => ?_ <;>
    have hsame₃ : SameEvidence d d₃ := hsame₂.trans (runs_loadAt hload).1.sameEvidence
  · exact ⟨hsame₃.keeps hs, by simp⟩
  split at h
  · exact after_fail h ⟨hsame₃.keeps hs, by simp⟩
  split at h
  · exact after_fail h ⟨hsame₃.keeps hs, by simp⟩
  refine after_loadSecure h (fun _ => ⟨hsame₃.keeps hs, by simp⟩) fun h => ?_
  split at h
  · exact after_fail h ⟨hsame₃.keeps hs, by simp⟩
  rename_i s₃ hs₃
  split at h
  · exact after_fail h ⟨hsame₃.keeps hs, by simp⟩
  have hall₃ : AllSemantic d₃ := by
    intro t ht c hc
    obtain ⟨t₁, ht₁, hc₁⟩ := (hsame₃.keeps (p := p.toPlatform) hs).inline t ht c hc
    exact hall t₁ ht₁ c hc₁
  obtain ⟨hkeeps, hanswers⟩ := runs_claimDecision hp hs₃ hall₃ h
  refine ⟨(hsame₃.keeps hs).trans hkeeps, fun verified hverified => ?_⟩
  obtain ⟨hresumed, hgranted⟩ := hanswers verified hverified
  refine ⟨fun hreplayed => ?_, fun hreplayed => ?_⟩
  · obtain ⟨c, hc, hid, hsemantic⟩ := hresumed hreplayed
    exact ⟨c, (hsame₃.held_iff hs _ _).1 hc, hid, hsemantic⟩
  · obtain ⟨⟨hclaim, hsemantic⟩, htaken⟩ := hgranted hreplayed
    refine ⟨⟨?_, ?_⟩, htaken⟩
    · rintro ⟨c, hc, hx⟩
      exact hclaim ⟨c, (hsame₃.held_iff hs _ _).2 hc, hx⟩
    · rintro ⟨c, hc, hx⟩
      exact hsemantic ⟨c, (hsame₃.held_iff hs _ _).2 hc, hx⟩

/-! ## Histories -/

/-- One event of a history, with what becomes of its writes: a decision is presented, or the authority is installed or
loaded. -/
inductive Operation (D : Type) where
  | claim (locals : LocalBindings D) (envelope : DecisionEnvelope (Hex D)) (context : DecisionContext (Hex D))
      (nowMs : Nat) (writes : List WriteOutcome)
  | install (locals : LocalBindings D) (file : Option Bytes) (nowMs : Nat) (writes : List WriteOutcome)
  | load (locals : LocalBindings D) (nowMs : Option Nat) (writes : List WriteOutcome)

/-- The resident under a history of operations; nothing is kept between them but the disk. -/
def decisionMachine (p : DecisionPlatform A D) :
    Machine (Disk A D) (Operation D) (Option (Except String (VerifiedDecision D))) where
  step d
    | .claim locals envelope context nowMs writes =>
      let out := verifyAndClaimAt p locals envelope context nowMs d writes
      (out.2.1, some out.1)
    | .install locals file nowMs writes => ((installRecordAt p.toPlatform locals file nowMs d writes).2.1, none)
    | .load locals nowMs writes => ((loadAt p.toPlatform locals nowMs d writes).2.1, none)

def decidedDigest (p : DecisionPlatform A D) (envelope : DecisionEnvelope (Hex D)) (v : VerifiedDecision D) :
    Purpose → D
  | .claim => v.claimId
  | .semantic => semanticDecisionDigest p envelope

/-- The event is a call that was answered with a new grant of this digest. -/
def grants (p : DecisionPlatform A D) (q : Purpose) (x : D) :
    Operation D × Option (Except String (VerifiedDecision D)) → Bool
  | (.claim _ envelope _ _ _, some (.ok v)) => !v.replayed && decide (decidedDigest p envelope v q = x)
  | _ => false

theorem keeps_step (hp : CollisionFree p.toPlatform) (hall : AllSemantic d) (op : Operation D) :
    Keeps p.toPlatform d ((decisionMachine p).step d op).1 := by
  cases op with
  | claim locals envelope context nowMs writes => exact (runs_verifyAndClaimAt hp hall ⟨writes, rfl, rfl⟩).1
  | install locals file nowMs writes => exact (runs_installRecordAt ⟨writes, rfl, rfl⟩).1.keeps
  | load locals nowMs writes => exact (runs_loadAt ⟨writes, rfl, rfl⟩).1.keeps

theorem Keeps.allSemantic (h : Keeps p.toPlatform d d') (hall : AllSemantic d) :
    AllSemantic d' := by
  intro s' hs' c hc
  obtain ⟨s, hs, hc'⟩ := h.inline s' hs' c hc
  exact hall s hs c hc'

theorem Keeps.taken (h : Keeps p.toPlatform d d') {x : D} (hx : Taken p.toPlatform d q x) :
    Taken p.toPlatform d' q x := by
  obtain ⟨c, hc, hd⟩ := hx
  exact ⟨c, h.held q c hc, hd⟩

theorem keeps_final (hp : CollisionFree p.toPlatform) (ops : List (Operation D))
    (hall : AllSemantic d) : Keeps p.toPlatform d ((decisionMachine p).final d ops) := by
  have h := (decisionMachine p).final_invariant (fun d' => Keeps p.toPlatform d d' ∧ AllSemantic d') ?_ ops d
    ⟨keeps_of_grown (.refl _) rfl, hall⟩
  · exact h.1
  · rintro d' op ⟨hkeeps, hall'⟩
    have hstep := keeps_step hp hall' op
    exact ⟨hkeeps.trans hstep, hstep.allSemantic hall'⟩

/-- **One event that grants** finds its digest free and leaves it taken. -/
theorem taken_of_grants (hp : CollisionFree p.toPlatform) (hall : AllSemantic d) {op : Operation D}
    {x : D} (h : grants p q x (op, ((decisionMachine p).step d op).2) = true) :
    ¬ Taken p.toPlatform d q x ∧ Taken p.toPlatform ((decisionMachine p).step d op).1 q x := by
  unfold grants at h
  split at h
  · rename_i locals envelope context nowMs writes v heq
    obtain ⟨rfl, hanswer⟩ := Prod.mk.inj heq
    simp only [Bool.and_eq_true, Bool.not_eq_true', decide_eq_true_eq] at h
    obtain ⟨hreplayed, rfl⟩ := h
    have hrun : Runs (verifyAndClaimAt p locals envelope context nowMs) d (.ok v) _ :=
      ⟨writes, Option.some.inj hanswer, rfl⟩
    obtain ⟨⟨hclaim, hsemantic⟩, hclaim', hsemantic'⟩ :=
      ((runs_verifyAndClaimAt hp hall hrun).2 v rfl).granted hreplayed
    cases q with
    | claim => exact ⟨hclaim, hclaim'⟩
    | semantic => exact ⟨hsemantic, hsemantic'⟩
  · cases h

/-- **At most one grant.** -/
theorem grants_le_one (hp : CollisionFree p.toPlatform) (ops : List (Operation D))
    (hall : AllSemantic d) (q : Purpose) (x : D) :
    ((decisionMachine p).trace d ops).countP (grants p q x) ≤ 1 := by
  have h := (decisionMachine p).run_invariant
    (fun history d' => AllSemantic d' ∧ (history.countP (grants p q x) = 0 ∨
      history.countP (grants p q x) = 1 ∧ Taken p.toPlatform d' q x)) ?_ ops [] d ⟨hall, .inl rfl⟩
  · rw [List.nil_append] at h
    obtain ⟨-, h | ⟨h, -⟩⟩ := h <;> omega
  · rintro history d' op ⟨hall', hcount⟩
    have hkeeps := keeps_step hp hall' op
    refine ⟨hkeeps.allSemantic hall', ?_⟩
    rw [List.countP_append, List.countP_singleton]
    by_cases hgrants : grants p q x (op, ((decisionMachine p).step d' op).2) = true
    · obtain ⟨hfree, htaken⟩ := taken_of_grants hp hall' hgrants
      obtain hzero | ⟨-, hheld⟩ := hcount
      · exact .inr ⟨by rw [hzero, if_pos hgrants], htaken⟩
      · exact absurd hheld hfree
    · rw [if_neg hgrants]
      exact hcount.imp id fun hone => ⟨hone.1, hkeeps.taken hone.2⟩

/-- **Decisions are granted once.**  From any disk whose inline claims all have semantic digests, over every history of
calls, installs and loads with every write done, lost or done and not reported: at most one call per claim id and at
most one per semantic digest is answered as new; a call is answered as resumed only when its claim id is held with its
semantic digest; what is held stays held, in the list or in the index; and the time floor never falls. -/
theorem decision_granted_once (p : DecisionPlatform A D) (hp : CollisionFree p.toPlatform) (d : Disk A D)
    (hall : AllSemantic d) (before after : List (Operation D)) :
    (∀ q x, ((decisionMachine p).trace d before).countP (grants p q x) ≤ 1) ∧
    (∀ locals envelope context nowMs writes v,
      ((decisionMachine p).step ((decisionMachine p).final d before)
        (.claim locals envelope context nowMs writes)).2 = some (.ok v) → v.replayed = true →
      ∃ c, Held p.toPlatform ((decisionMachine p).final d before) .claim c ∧ c.claimId = v.claimId ∧
        c.semanticDecisionDigest = some (semanticDecisionDigest p envelope)) ∧
    (∀ q c, Held p.toPlatform ((decisionMachine p).final d before) q c →
      Held p.toPlatform ((decisionMachine p).final d (before ++ after)) q c) ∧
    ((decisionMachine p).final d before).floor ≤ ((decisionMachine p).final d (before ++ after)).floor := by
  have hall' : AllSemantic ((decisionMachine p).final d before) := (keeps_final hp before hall).allSemantic hall
  have hkeeps := keeps_final hp after hall'
  refine ⟨grants_le_one hp before hall, fun locals envelope context nowMs writes v hv hreplayed => ?_, ?_⟩
  · have hrun : Runs (verifyAndClaimAt p locals envelope context nowMs) ((decisionMachine p).final d before)
        (.ok v) _ := ⟨writes, Option.some.inj hv, rfl⟩
    exact ((runs_verifyAndClaimAt hp hall' hrun).2 v rfl).resumed hreplayed
  · rw [(decisionMachine p).final_append]
    exact ⟨hkeeps.held, hkeeps.floor⟩

end

/-! ## A run -/

/-- The small platform with the forms of a decision: its semantics are the request it is about. -/
def sampleDecisionPlatform (nodeText : ClaimNode Bytes Bytes → Bytes) : DecisionPlatform Bytes Bytes where
  toPlatform := { samplePlatform sampleRecord with nodeText := nodeText }
  envelopeText e := e.claimId.elim id (fun _ => [])
  signingText e := e.claimId.elim id (fun _ => [])
  semanticText s := s.requestBinding.elim id (fun _ => [])
  retryScopeText _ _ _ _ := []
  signatureVerifies _ _ _ := true

def sampleEnvelope (claimId request : UInt8) : DecisionEnvelope (Hex Bytes) where
  schema := decisionSchema
  version := decisionVersion
  purpose := authorityPurpose
  authorityGeneration := 1
  authorityKeyId := .inl (sampleKey 1)
  authorityRecordDigest := .inl [1, 1]
  workspaceBinding := .inl [1]
  deviceBinding := .inl [2]
  installationBinding := .inl [3]
  scopeBinding := .inl [4]
  requestBinding := .inl [request]
  actionBinding := .inl [5]
  intentBinding := .inl [6]
  revisionBinding := .inl [7]
  policyBinding := .inl [8]
  retryScopeBinding := .inl retryScopeDomain
  deliveryMode := deliveryRetryOnly
  decision := "allow"
  claimId := .inl [claimId]
  issuedAtMs := 10
  expiresAtMs := 20
  decisionSignature := String.ofList (List.replicate 128 'a')

def sampleContext (request : UInt8) : DecisionContext (Hex Bytes) where
  workspaceBinding := .inl [1]
  deviceBinding := .inl [2]
  installationBinding := .inl [3]
  scopeBinding := .inl [4]
  requestBinding := .inl [request]
  actionBinding := .inl [5]
  intentBinding := .inl [6]
  revisionBinding := .inl [7]
  policyBinding := .inl [8]
  retryScopeBinding := .inl retryScopeDomain

def sampleCall (claimId request : UInt8) (writes : List WriteOutcome) : Operation Bytes :=
  .claim (.ok ([2], [3])) (sampleEnvelope claimId request) (sampleContext request) 15 writes

def outcome : Option (Except String (VerifiedDecision Bytes)) → String
  | none => "-"
  | some (.error e) => e
  | some (.ok v) => if v.replayed then "resumed" else "granted"

def sampleDisk : Disk Bytes Bytes :=
  (authorityMachine (samplePlatform sampleRecord)).final Disk.empty
    [.install (.ok ([2], [3])) (some [1, 1]) 15 [],
      .observe [⟨[6], [6], some (semanticDomain ++ [0]), false, some 20⟩] none 0]

/-- A decision that moves the inline claim, repetitions of both, and a decision whose commit is not reported. -/
def sampleOperations : List (Operation Bytes) :=
  [sampleCall 7 1 [], sampleCall 6 0 [], sampleCall 7 1 [], sampleCall 8 1 [],
    sampleCall 9 2 [.done, .done, .done, .done, .done, .unreported], sampleCall 9 2 []]

example :
    ((decisionMachine (sampleDecisionPlatform (samplePlatform sampleRecord).nodeText)).trace sampleDisk
      sampleOperations).map (fun e => outcome e.2) =
      ["granted", "resumed", "resumed", decisionReplay, secureStateUnavailable, "resumed"] := by
  decide +kernel

theorem allSemantic_sampleDisk : AllSemantic sampleDisk := by
  have hall : sampleDisk.secure.all (fun s => s.consumedClaims.all (fun c => c.semanticDecisionDigest.isSome)) =
      true := by
    decide +kernel
  intro s hs c hc
  rw [hs, Option.all_some, List.all_eq_true] at hall
  exact hall c hc

instance : Countable (Claim Bytes) := by
  refine Function.Injective.countable (f := fun c : Claim Bytes =>
    (c.claimId, c.envelopeDigest, c.semanticDecisionDigest, c.legacySemanticRecovered, c.expiresAtMs)) ?_
  rintro ⟨⟩ ⟨⟩ h
  simpa using h

/-- There are as many texts as nodes. -/
theorem exists_nodeText : ∃ f : ClaimNode Bytes Bytes → Bytes, Function.Injective f := by
  let parts : ClaimNode Bytes Bytes →
    (List Bytes × Claim Bytes) ⊕ (List Bytes × Multiset (Sigma fun _ : Bytes => Bytes)) :=
    fun n => n.casesOn (fun key content => .inl (key, content))
      fun letters children => .inr (letters, children.entries)
  have hparts : Function.Injective parts := by
    rintro (⟨key, content⟩ | ⟨letters, children⟩) (⟨key', content'⟩ | ⟨letters', children'⟩) h
    · cases h
      rfl
    · cases h
    · cases h
    · simp only [parts, Sum.inr.injEq, Prod.mk.injEq] at h
      rw [h.1, Finmap.ext h.2]
  have : Countable (ClaimNode Bytes Bytes) := hparts.countable
  obtain ⟨f, hf⟩ := exists_injective_nat (ClaimNode Bytes Bytes)
  exact ⟨fun n => List.replicate (f n) 0, fun n m h => hf (by simpa using congrArg List.length h)⟩

noncomputable def idealPlatform : DecisionPlatform Bytes Bytes := sampleDecisionPlatform exists_nodeText.choose

theorem collisionFree_idealPlatform : CollisionFree idealPlatform.toPlatform :=
  ⟨Function.injective_id, Function.injective_id, exists_nodeText.choose_spec⟩

theorem sampleOperations_granted_once :
    (∀ q x, ((decisionMachine idealPlatform).trace sampleDisk sampleOperations).countP (grants idealPlatform q x) ≤ 1) ∧
      ∀ q c, Held idealPlatform.toPlatform sampleDisk q c →
        Held idealPlatform.toPlatform ((decisionMachine idealPlatform).final sampleDisk sampleOperations) q c :=
  ⟨(decision_granted_once idealPlatform collisionFree_idealPlatform sampleDisk allSemantic_sampleDisk
      sampleOperations []).1,
    (decision_granted_once idealPlatform collisionFree_idealPlatform sampleDisk allSemantic_sampleDisk []
      sampleOperations).2.2.1⟩

end Guard.WorkspaceReview
