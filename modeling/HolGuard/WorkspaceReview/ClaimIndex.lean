import HolGuard.WorkspaceReview.Authority
/-!
# Where consumed claims are kept

`workspace_review_claim_index.rs` and `record_claim`.  A claim of the index is filed twice, under its id and under the
digest of what was decided; a claim of the older inline list is moved into the index when the next one is recorded.
-/
namespace Guard.WorkspaceReview

open Lib

/-- The two keys a claim is filed under. -/
inductive Purpose where
  | claim
  | semantic
deriving DecidableEq

def Purpose.text : Purpose → String
  | .claim => "claim"
  | .semantic => "semantic"

def nodeDomain : Bytes := utf8 "guard-workspace-review-claim-index-node" ++ [0]

def keyDomain : Bytes := utf8 "guard-workspace-review-claim-index-key" ++ [0]

def claimIndexInvalid : String := "native_workspace_review_claim_index_invalid"

def claimIndexUnavailable : String := "native_workspace_review_claim_index_unavailable"

def decisionReplay : String := "native_workspace_review_decision_replay"

def Claim.digestFor {D : Type} (c : Claim D) : Purpose → Option D
  | .claim => some c.claimId
  | .semantic => c.semanticDecisionDigest

section

variable {A D : Type} [DecidableEq A] [DecidableEq D] (p : Platform A D)

/-- `key`, as its hexadecimal digits -/
def indexKey (q : Purpose) (d : D) : List A :=
  p.letters (p.digest (keyDomain ++ utf8 q.text ++ [0] ++ p.digestText d))

/-- The leaf case of `validate_node` -/
def validLeaf (key : List A) (c : Claim D) : Bool :=
  c.semanticDecisionDigest.isSome && c.expiresAtMs != some 0 &&
    (decide (key = indexKey p .claim c.claimId) ||
      c.semanticDecisionDigest.any (fun d => decide (key = indexKey p .semantic d)))

omit [DecidableEq D] in
theorem length_of_validLeaf (key : List A) (c : Claim D) (h : validLeaf p key c = true) : key.length = 64 := by
  simp only [validLeaf, Bool.and_eq_true, Bool.or_eq_true, decide_eq_true_eq] at h
  obtain ⟨-, rfl | hsemantic⟩ := h
  · exact p.length_letters _
  · obtain ⟨d, -, hd⟩ := (Option.any_eq_true _ _).1 hsemantic
    rw [of_decide_eq_true hd]
    exact p.length_letters _

/-- `validate_node`, `node_digest` and the error codes -/
def claimScheme : DigestTrie.Scheme A D (Claim D) where
  width := 64
  digest n := p.digest (nodeDomain ++ p.nodeText n)
  validLeaf := validLeaf p
  length_of_validLeaf := length_of_validLeaf p
  fanout := 16
  invalid := claimIndexInvalid
  unavailable := claimIndexUnavailable
  duplicate := decisionReplay

/-- A program of the index on the whole disk. -/
def onNodes {α : Type} (c : Faulty (DigestTrie.Files A D (Claim D)) α) : Session A D α :=
  Faulty.zoom Disk.nodes (fun nodes d => { d with nodes := nodes }) c

/-- `find_claim` and `find_semantic` -/
def find (q : Purpose) (anchor : ClaimIndexAnchor D) (d : D) : Session A D (Option (Claim D)) := do
  let disk ← Faulty.get
  Faulty.lift ((claimScheme p).lookup disk.nodes anchor.root (indexKey p q d))

def findClaim : ClaimIndexAnchor D → D → Session A D (Option (Claim D)) := find p .claim

def findSemantic : ClaimIndexAnchor D → D → Session A D (Option (Claim D)) := find p .semantic

def insertClaim (root : Option D) (c : Claim D) : Session A D D :=
  match c.semanticDecisionDigest with
  | none => Faulty.fail claimIndexInvalid
  | some semantic => do
    let claimRoot ← onNodes ((claimScheme p).insertNode (indexKey p .claim c.claimId) c 0 root)
    onNodes ((claimScheme p).insertNode (indexKey p .semantic semantic) c 0 (some claimRoot))

/-- The last claim that has a semantic digest, and the list without it. -/
def takeMigrated : List (Claim D) → Option (Claim D × List (Claim D))
  | [] => none
  | c :: cs =>
    match takeMigrated cs with
    | some (m, rest) => some (m, c :: rest)
    | none => if c.semanticDecisionDigest.isSome then some (c, cs) else none

/-- One turn of the loop of `record_claim`. -/
def addClaim (place : Option D × Nat) (c : Claim D) : Session A D (Option D × Nat) := do
  let root ← insertClaim p place.1 c
  if place.2 + 1 < 2 ^ 64 then pure (some root, place.2 + 1) else Faulty.fail claimIndexInvalid

def addMigrated (place : Option D × Nat) : Option (Claim D × List (Claim D)) → Session A D (Option D × Nat)
  | none => pure place
  | some (m, _) => addClaim p place m

/-- Where the index of a state starts from: its root and its count. -/
def SecureState.indexPlace (s : SecureState D) : Option D × Nat :=
  (s.claimIndex.map ClaimIndexAnchor.root, s.claimIndex.elim 0 ClaimIndexAnchor.claimCount)

def SecureState.withClaims (s : SecureState D) (claims : List (Claim D)) (anchor : ClaimIndexAnchor D) :
    SecureState D :=
  { s with consumedClaims := claims, claimIndex := some anchor }

def recordClaim (s : SecureState D) (c : Claim D) : Session A D Unit := do
  let migrated := takeMigrated s.consumedClaims
  let moved ← addMigrated p s.indexPlace migrated
  let added ← addClaim p moved c
  -- `sync_directories_before_commit` changes no file, but may fail
  Faulty.write (fun disk => disk) claimIndexUnavailable
  match added.1 with
  | none => Faulty.fail claimIndexInvalid
  | some root => storeSecure p (s.withClaims ((migrated.map Prod.snd).getD s.consumedClaims) ⟨root, added.2⟩)

end
end Guard.WorkspaceReview
