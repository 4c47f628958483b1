import HolGuard.Lib.Machine
import HolGuard.Lib.PyObject
import HolGuard.Lib.PyTime
import HolGuard.Lib.Text
/-!
# Versions of policy bundles

`policy_bundle_is_version_downgrade` decides whether a bundle may replace the accepted one: by integer version when
both are v2 bundles, by issue time and then by the numbers in the version text otherwise.  The activation stores the
checkpoint of each bundle it takes and refuses the downgrades from it.

Two v2 bundles are compared without their issue times, so a newer v2 bundle may carry an older issue time; a v1 bundle
between the two then leads back to the first.  `activated_ascends` shows that nothing else does.
-/
namespace Guard.PolicyBundle

open Lib

/-- `datetime.fromisoformat`, and the float `datetime.timestamp` gives an instant. -/
structure Clock where
  fromisoformat : String → Option DateTime
  timestamp : Int → ℚ

def nonEmptyString : PyObject → Option String
  | .str s => if (pythonStrip s).isEmpty then none else some s
  | _ => none

def zuluToOffset (value : String) : String :=
  match value.toList.getLast? with
  | some 'Z' | some 'z' => String.ofList value.toList.dropLast ++ "+00:00"
  | _ => value

def parsePolicyBundleTimestamp (k : Clock) (value : String) : Option ℚ :=
  (k.fromisoformat (zuluToOffset value)).map (fun parsed => k.timestamp parsed.utcInstant)

/-- `_version_tuple`: the runs of digits, as numbers. -/
def versionTuple (value : String) : Option (List Nat) :=
  let tokens := (value.toList.splitOnP (fun c => !c.isDigit)).filter (fun token => !token.isEmpty)
  if tokens.isEmpty then none
  else some (tokens.map (fun token => token.foldl (fun n c => 10 * n + (c.toNat - 48)) 0))

def policyBundleAcceptanceCheckpoint (bundle : PyDict) : PyDict :=
  (["bundleHash", "bundleVersion", "issuedAt", "payloadHash", "workspaceId"].map
    (fun key => (key, PyDict.get bundle key))).filter (fun entry => !entry.2.isNone)

/-- The last comparison, of two bundles with one issue time. -/
def versionTextIsDowngrade (accepted candidate : PyDict) : Bool :=
  let text := fun (bundle : PyDict) key => nonEmptyString (PyDict.get bundle key)
  match text accepted "bundleVersion", text candidate "bundleVersion" with
  | some acceptedVersion, some candidateVersion =>
    match versionTuple acceptedVersion, versionTuple candidateVersion with
    | some acceptedNumeric, some candidateNumeric => decide (candidateNumeric ≤ acceptedNumeric)
    | _, _ =>
      acceptedVersion != candidateVersion || text accepted "bundleHash" != text candidate "bundleHash" ||
        text accepted "payloadHash" != text candidate "payloadHash"
  | _, _ => true

/-- `policy_bundle_is_version_downgrade`; the hashes of two v2 bundles are texts. -/
def policyBundleIsVersionDowngrade (k : Clock) (accepted candidate : PyDict) : Bool :=
  if accepted.isEmpty then false
  else
    match (PyDict.get accepted "bundleVersion").int?, (PyDict.get candidate "bundleVersion").int? with
    | some acceptedVersion, some candidateVersion =>
      if candidateVersion ≠ acceptedVersion then decide (candidateVersion < acceptedVersion)
      else !PyObject.scalarEq (PyDict.get accepted "bundleHash") (PyDict.get candidate "bundleHash")
    | _, _ =>
      let text := fun (bundle : PyDict) key => nonEmptyString (PyDict.get bundle key)
      if (text accepted "workspaceId").isSome ∧ (text candidate "workspaceId").isSome ∧
          text accepted "workspaceId" ≠ text candidate "workspaceId" then false
      else if (text accepted "bundleHash").isSome ∧ text accepted "bundleHash" = text candidate "bundleHash" ∧
          ((text accepted "payloadHash").isSome ∧ text accepted "payloadHash" = text candidate "payloadHash" ∨
            text accepted "payloadHash" = none ∧ text candidate "payloadHash" = none) then false
      else
        match text accepted "issuedAt", text candidate "issuedAt" with
        | some acceptedIssuedAt, some candidateIssuedAt =>
          match parsePolicyBundleTimestamp k acceptedIssuedAt, parsePolicyBundleTimestamp k candidateIssuedAt with
          | some acceptedTimestamp, some candidateTimestamp =>
            if candidateTimestamp ≠ acceptedTimestamp then decide (candidateTimestamp < acceptedTimestamp)
            else versionTextIsDowngrade accepted candidate
          | _, _ => true
        | _, _ => true

/-- `policy_checkpoint_rejection` and the checkpoint an activation stores; the row of `sync_state` is absent before the
first one. -/
def activate (k : Clock) (row : Option PyDict) (bundle : PyDict) : Option PyDict × Option String :=
  match row with
  | none => (some (policyBundleAcceptanceCheckpoint bundle), none)
  | some existing =>
    if existing.isEmpty then (row, some "policy_bundle_checkpoint_invalid")
    else if policyBundleIsVersionDowngrade k existing bundle then (row, some "bundle_version_downgrade")
    else (some (policyBundleAcceptanceCheckpoint bundle), none)

/-! ## Validated bundles -/

/-- A v1 version is a text, a v2 version an integer. -/
inductive BundleVersion where
  | text (s : String)
  | number (n : Int)
deriving DecidableEq

def BundleVersion.object : BundleVersion → PyObject
  | .text s => .str s
  | .number n => .int n

def NonBlank (s : String) : Prop := (pythonStrip s).isEmpty = false

instance (s : String) : Decidable (NonBlank s) := inferInstanceAs (Decidable ((pythonStrip s).isEmpty = false))

/-- What validation leaves of a bundle of one workspace, v1 or v2: the fields of its identity, well formed, and the
rest. -/
structure Bundle (k : Clock) (workspace : String) where
  version : BundleVersion
  bundleHash : String
  payloadHash : String
  issuedAt : String
  rest : PyDict
  version_nonBlank : ∀ s, version = .text s → NonBlank s
  bundleHash_nonBlank : NonBlank bundleHash
  payloadHash_nonBlank : NonBlank payloadHash
  issuedAt_nonBlank : NonBlank issuedAt
  issuedAt_parses : (parsePolicyBundleTimestamp k issuedAt).isSome = true

namespace Bundle

variable {k : Clock} {workspace : String}

def mapping (b : Bundle k workspace) : PyDict :=
  [("bundleVersion", b.version.object), ("bundleHash", .str b.bundleHash), ("issuedAt", .str b.issuedAt),
    ("payloadHash", .str b.payloadHash), ("workspaceId", .str workspace)] ++ b.rest

def time (b : Bundle k workspace) : ℚ := (parsePolicyBundleTimestamp k b.issuedAt).get b.issuedAt_parses

def identity (b : Bundle k workspace) : String × String := (b.bundleHash, b.payloadHash)

theorem parse_issuedAt (b : Bundle k workspace) : parsePolicyBundleTimestamp k b.issuedAt = some b.time :=
  (Option.some_get _).symm

theorem checkpoint_mapping (b : Bundle k workspace) :
    policyBundleAcceptanceCheckpoint b.mapping =
      [("bundleHash", .str b.bundleHash), ("bundleVersion", b.version.object), ("issuedAt", .str b.issuedAt),
        ("payloadHash", .str b.payloadHash), ("workspaceId", .str workspace)] := by
  cases hv : b.version with
  | text s =>
    simp [policyBundleAcceptanceCheckpoint, mapping, PyDict.get_cons, PyObject.isNone, BundleVersion.object, hv]
  | number n =>
    simp [policyBundleAcceptanceCheckpoint, mapping, PyDict.get_cons, PyObject.isNone, BundleVersion.object, hv]

theorem nonEmptyString_of_nonBlank {s : String} (h : NonBlank s) : nonEmptyString (.str s) = some s := by
  show (if (pythonStrip s).isEmpty then none else some s) = some s
  rw [if_neg (by rw [h]; exact Bool.false_ne_true)]

/-! ## The order of bundles -/

def Older : BundleVersion → BundleVersion → Prop
  | .text s, .text t => ∃ m n, versionTuple s = some m ∧ versionTuple t = some n ∧ m < n
  | .number m, .number n => m < n
  | _, _ => False

theorem Older.irrefl : ∀ v, ¬ Older v v
  | .text s, ⟨m, n, hm, hn, hlt⟩ => by
    rw [hm] at hn
    obtain rfl := Option.some.inj hn
    exact lt_irrefl m hlt
  | .number n, h => lt_irrefl n h

theorem Older.trans : ∀ {u v w : BundleVersion}, Older u v → Older v w → Older u w
  | .text _, .text _, .text _, ⟨m, n, hm, hn, hlt⟩, ⟨n', o, hn', ho, hlt'⟩ => by
    rw [hn] at hn'
    obtain rfl := Option.some.inj hn'
    exact ⟨m, o, hm, ho, lt_trans hlt hlt'⟩
  | .number _, .number _, .number _, h, h' => Int.lt_trans h h'
  | .text _, .text _, .number _, _, h => h.elim
  | .text _, .number _, _, h, _ => h.elim
  | .number _, .text _, _, h, _ => h.elim
  | .number _, .number _, .text _, _, h => h.elim

/-- `b` is later than `a`: by issue time, then by version. -/
def Newer (a b : Bundle k workspace) : Prop := a.time < b.time ∨ a.time = b.time ∧ Older a.version b.version

theorem Newer.irrefl (a : Bundle k workspace) : ¬ Newer a a := by
  rintro (h | ⟨-, h⟩)
  · exact lt_irrefl _ h
  · exact Older.irrefl _ h

theorem Newer.trans {a b c : Bundle k workspace} (hab : Newer a b) (hbc : Newer b c) : Newer a c := by
  rcases hab with hab | ⟨hab, hv⟩
  · rcases hbc with hbc | ⟨hbc, -⟩
    · exact Or.inl (lt_trans hab hbc)
    · exact Or.inl (hbc ▸ hab)
  · rcases hbc with hbc | ⟨hbc, hw⟩
    · exact Or.inl (hab ▸ hbc)
    · exact Or.inr ⟨hab.trans hbc, hv.trans hw⟩

/-- The same bundle by its identity, and so by what the hashes bind. -/
structure Same (a b : Bundle k workspace) : Prop where
  identity : a.identity = b.identity
  version : a.version = b.version
  issuedAt : a.issuedAt = b.issuedAt

theorem Same.time {a b : Bundle k workspace} (h : Same a b) : a.time = b.time := by
  have ha := a.parse_issuedAt
  rw [h.issuedAt, b.parse_issuedAt] at ha
  exact (Option.some.inj ha).symm

/-- `b` is the same as `a`, or later. -/
def AtLeast (a b : Bundle k workspace) : Prop := Same a b ∨ Newer a b

theorem AtLeast.trans {a b c : Bundle k workspace} (hab : AtLeast a b) (hbc : AtLeast b c) : AtLeast a c := by
  rcases hab with hab | hab
  · rcases hbc with hbc | hbc
    · exact Or.inl ⟨hab.identity.trans hbc.identity, hab.version.trans hbc.version, hab.issuedAt.trans hbc.issuedAt⟩
    · refine Or.inr ?_
      unfold Newer
      rw [hab.time, hab.version]
      exact hbc
  · rcases hbc with hbc | hbc
    · refine Or.inr ?_
      unfold Newer
      rw [← hbc.time, ← hbc.version]
      exact hab
    · exact Or.inr (hab.trans hbc)

theorem AtLeast.antisymm {a b : Bundle k workspace} (hab : AtLeast a b) (hba : AtLeast b a) : Same a b := by
  rcases hab with hab | hab
  · exact hab
  · rcases hba with hba | hba
    · refine absurd ?_ (Newer.irrefl a)
      unfold Newer at hab ⊢
      rw [hba.time, hba.version] at hab
      exact hab
    · exact absurd (hab.trans hba) (Newer.irrefl a)

/-! ## What an activation accepts -/

theorem versionText_notDowngrade {a b : Bundle k workspace}
    (h : versionTextIsDowngrade (policyBundleAcceptanceCheckpoint a.mapping) b.mapping = false) :
    a.identity = b.identity ∨ Older a.version b.version := by
  rw [checkpoint_mapping] at h
  simp only [versionTextIsDowngrade, mapping, List.cons_append, PyDict.get_cons, String.reduceEq, if_true, if_false,
    nonEmptyString_of_nonBlank a.bundleHash_nonBlank, nonEmptyString_of_nonBlank b.bundleHash_nonBlank,
    nonEmptyString_of_nonBlank a.payloadHash_nonBlank, nonEmptyString_of_nonBlank b.payloadHash_nonBlank] at h
  cases ha : a.version with
  | number m =>
    rw [ha] at h
    simp [BundleVersion.object, nonEmptyString] at h
  | text s =>
    cases hb : b.version with
    | number n =>
      rw [ha, hb] at h
      simp [BundleVersion.object, nonEmptyString] at h
    | text t =>
      rw [ha, hb, BundleVersion.object, BundleVersion.object, nonEmptyString_of_nonBlank (a.version_nonBlank s ha),
        nonEmptyString_of_nonBlank (b.version_nonBlank t hb)] at h
      simp only at h
      cases hs : versionTuple s with
      | none =>
        rw [hs] at h
        simp only [Bool.or_eq_false_iff, bne_eq_false_iff_eq, Option.some.injEq] at h
        exact Or.inl (Prod.ext h.1.2 h.2)
      | some m =>
        cases ht : versionTuple t with
        | none =>
          rw [hs, ht] at h
          simp only [Bool.or_eq_false_iff, bne_eq_false_iff_eq, Option.some.injEq] at h
          exact Or.inl (Prod.ext h.1.2 h.2)
        | some n =>
          rw [hs, ht] at h
          simp only [decide_eq_false_iff_not, not_le] at h
          exact Or.inr ⟨m, n, hs, ht, h⟩

/-- **What may replace an accepted bundle**: the same one, a later one, or, among v2 bundles, one of a larger version
whatever its issue time. -/
theorem notDowngrade_cases {a b : Bundle k workspace}
    (h : policyBundleIsVersionDowngrade k (policyBundleAcceptanceCheckpoint a.mapping) b.mapping = false) :
    (∃ m n, a.version = .number m ∧ b.version = .number n ∧ (m < n ∨ m = n ∧ a.bundleHash = b.bundleHash)) ∨
      a.identity = b.identity ∨ Newer a b := by
  have htext := @versionText_notDowngrade k workspace a b
  unfold policyBundleIsVersionDowngrade at h
  generalize hdeep : versionTextIsDowngrade (policyBundleAcceptanceCheckpoint a.mapping) b.mapping = deep at h htext
  rw [checkpoint_mapping] at h
  simp only [mapping, List.cons_append, PyDict.get_cons, String.reduceEq, if_true, if_false, List.isEmpty_cons,
    nonEmptyString_of_nonBlank a.bundleHash_nonBlank, nonEmptyString_of_nonBlank b.bundleHash_nonBlank,
    nonEmptyString_of_nonBlank a.payloadHash_nonBlank, nonEmptyString_of_nonBlank b.payloadHash_nonBlank,
    nonEmptyString_of_nonBlank a.issuedAt_nonBlank, nonEmptyString_of_nonBlank b.issuedAt_nonBlank,
    parse_issuedAt, Bool.false_eq_true] at h
  split at h
  · rename_i m n hm hn
    have hnumber : ∀ {v : BundleVersion} {i : Int}, v.object.int? = some i → v = .number i := by
      rintro (s | j) i h <;> cases h
      rfl
    refine Or.inl ⟨m, n, hnumber hm, hnumber hn, ?_⟩
    split at h
    · rename_i hne
      simp only [decide_eq_false_iff_not, not_lt] at h
      exact Or.inl (lt_of_le_of_ne h (Ne.symm hne))
    · rename_i heq
      push Not at heq
      rw [Bool.not_eq_false', PyObject.scalarEq_str] at h
      exact Or.inr ⟨heq.symm, (PyObject.str.inj h).symm⟩
  · refine Or.inr ?_
    split at h
    · rename_i hws
      exact absurd rfl hws.2.2
    split at h
    · rename_i hid
      refine Or.inl (Prod.ext (Option.some.inj hid.2.1) ?_)
      rcases hid.2.2 with ⟨-, hp⟩ | ⟨hp, -⟩
      · exact Option.some.inj hp
      · cases hp
    split at h
    · rename_i hne
      simp only [decide_eq_false_iff_not, not_lt] at h
      exact Or.inr (Or.inl (lt_of_le_of_ne h (Ne.symm hne)))
    · rename_i heq
      push Not at heq
      rcases htext h with hid | hold
      · exact Or.inl hid
      · exact Or.inr (Or.inr ⟨heq.symm, hold⟩)

theorem notDowngrade_self (b : Bundle k workspace) :
    policyBundleIsVersionDowngrade k (policyBundleAcceptanceCheckpoint b.mapping) b.mapping = false := by
  unfold policyBundleIsVersionDowngrade
  rw [checkpoint_mapping]
  simp only [mapping, List.cons_append, PyDict.get_cons, String.reduceEq, if_true, if_false, List.isEmpty_cons,
    nonEmptyString_of_nonBlank b.bundleHash_nonBlank, nonEmptyString_of_nonBlank b.payloadHash_nonBlank]
  cases b.version with
  | text s => simp [BundleVersion.object, PyObject.int?]
  | number n => simp [BundleVersion.object, PyObject.int?, PyObject.scalarEq_str]

end Bundle

/-! ## Runs of activations -/

open Guard.PolicyBundle.Bundle

variable {k : Clock} {workspace : String}

def activations (k : Clock) (workspace : String) : Machine (Option PyDict) (Bundle k workspace) (Option String) :=
  ⟨fun row b => activate k row b.mapping⟩

/-- The bundle hash covers the version and the issue time, and in a v2 bundle the payload hash too: no two offered
bundles collide on it. -/
def HashesBind (bundles : List (Bundle k workspace)) : Prop :=
  ∀ a ∈ bundles, ∀ b ∈ bundles, a.bundleHash = b.bundleHash →
    a.version = b.version ∧ a.issuedAt = b.issuedAt ∧ ∀ n, a.version = .number n → a.payloadHash = b.payloadHash

/-- A v2 bundle that is offered over a v2 bundle of a smaller version was issued no earlier. -/
def IssuedInOrder (k : Clock) (row : Option PyDict) (b : Bundle k workspace) : Prop :=
  ∀ existing m n issuedAt time, row = some existing → (PyDict.get existing "bundleVersion").int? = some m →
    b.version = .number n → m < n → nonEmptyString (PyDict.get existing "issuedAt") = some issuedAt →
    parsePolicyBundleTimestamp k issuedAt = some time → time ≤ b.time

theorem activate_accepted {row : Option PyDict} {bundle : PyDict} (h : (activate k row bundle).2 = none) :
    (activate k row bundle).1 = some (policyBundleAcceptanceCheckpoint bundle) ∧
      ∀ existing, row = some existing → policyBundleIsVersionDowngrade k existing bundle = false := by
  cases row with
  | none => exact ⟨rfl, fun existing hnone => by cases hnone⟩
  | some existing =>
    unfold activate at h ⊢
    by_cases hempty : existing.isEmpty = true
    · simp [hempty] at h
    · by_cases hdown : policyBundleIsVersionDowngrade k existing bundle = true
      · simp [hempty, hdown] at h
      · simp only [hempty, hdown]
        refine ⟨rfl, fun other hother => ?_⟩
        obtain rfl := Option.some.inj hother
        simpa using hdown

theorem activate_refused {row : Option PyDict} {bundle : PyDict} (h : (activate k row bundle).2 ≠ none) :
    (activate k row bundle).1 = row := by
  cases row with
  | none => exact absurd rfl h
  | some existing =>
    unfold activate at h ⊢
    by_cases hempty : existing.isEmpty = true
    · simp [hempty]
    · by_cases hdown : policyBundleIsVersionDowngrade k existing bundle = true
      · simp [hempty, hdown]
      · simp [hempty, hdown] at h

theorem atLeast_of_notDowngrade {bundles : List (Bundle k workspace)} (hbind : HashesBind bundles)
    {a b : Bundle k workspace} (ha : a ∈ bundles) (hb : b ∈ bundles)
    (horder : IssuedInOrder k (some (policyBundleAcceptanceCheckpoint a.mapping)) b)
    (h : policyBundleIsVersionDowngrade k (policyBundleAcceptanceCheckpoint a.mapping) b.mapping = false) :
    AtLeast a b := by
  have hsame : a.bundleHash = b.bundleHash → a.payloadHash = b.payloadHash → AtLeast a b := fun hh hp =>
    Or.inl ⟨Prod.ext hh hp, (hbind a ha b hb hh).1, (hbind a ha b hb hh).2.1⟩
  rcases notDowngrade_cases h with ⟨m, n, hm, hn, hlt | ⟨rfl, hh⟩⟩ | hid | hnewer
  · have htime : a.time ≤ b.time := by
      refine horder _ m n a.issuedAt a.time rfl ?_ hn hlt ?_ a.parse_issuedAt
      · rw [checkpoint_mapping, hm]
        simp [PyDict.get_cons, BundleVersion.object, PyObject.int?]
      · rw [checkpoint_mapping]
        simp [PyDict.get_cons, nonEmptyString_of_nonBlank a.issuedAt_nonBlank]
    rcases lt_or_eq_of_le htime with htime | htime
    · exact Or.inr (Or.inl htime)
    · exact Or.inr (Or.inr ⟨htime, by rw [hm, hn]; exact hlt⟩)
  · exact hsame hh ((hbind a ha b hb hh).2.2 m hm)
  · exact hsame (congrArg Prod.fst hid) (congrArg Prod.snd hid)
  · exact Or.inr hnewer

/-- **Activated bundles ascend**: of two activations the later one has at least the bundle of the earlier. -/
theorem activated_ascends {bundles : List (Bundle k workspace)} (hbind : HashesBind bundles)
    (horder : ∀ t ∈ (activations k workspace).steps none bundles, IssuedInOrder k t.before t.input) :
    ((activations k workspace).steps none bundles).Pairwise
      (fun s t => s.output = none → t.output = none → AtLeast s.input t.input) := by
  have hstep : ∀ t ∈ (activations k workspace).steps none bundles, t.input ∈ bundles ∧
      activate k t.before t.input.mapping = (t.after, t.output) := fun t ht =>
    (Machine.steps_invariant (fun _ => True) bundles none (fun _ _ _ _ => trivial) trivial t ht).2
  -- after an activation the row is the checkpoint of a bundle that is at least it
  have hcurrent : ∀ t ∈ (activations k workspace).steps none bundles, t.output = none →
      t.after = some (policyBundleAcceptanceCheckpoint t.input.mapping) := by
    intro t ht hout
    obtain ⟨-, heq⟩ := hstep t ht
    have := @activate_accepted k t.before t.input.mapping (by rw [heq]; exact hout)
    rw [heq] at this
    exact this.1
  have hascend : ∀ t ∈ (activations k workspace).steps none bundles, ∀ a ∈ bundles,
      t.before = some (policyBundleAcceptanceCheckpoint a.mapping) → t.output = none → AtLeast a t.input := by
    intro t ht a ha hbefore hout
    obtain ⟨hin, heq⟩ := hstep t ht
    have haccepted := @activate_accepted k t.before t.input.mapping (by rw [heq]; exact hout)
    have ho := horder t ht
    rw [hbefore] at ho
    exact atLeast_of_notDowngrade hbind ha hin ho (haccepted.2 _ hbefore)
  have hpairs := Machine.pairwise_steps (m := activations k workspace)
    (fun s row => s.output = none → s.input ∈ bundles → ∃ a ∈ bundles,
      row = some (policyBundleAcceptanceCheckpoint a.mapping) ∧ AtLeast s.input a) bundles none ?_ ?_
  · refine hpairs.imp_of_mem ?_
    intro s t hs ht h hsout htout
    obtain ⟨a, ha, hbefore, hle⟩ := h hsout (hstep s hs).1
    exact hle.trans (hascend t ht a ha hbefore htout)
  · intro s t ht h hsout hsin
    obtain ⟨a, ha, hbefore, hle⟩ := h hsout hsin
    by_cases hout : t.output = none
    · exact ⟨t.input, (hstep t ht).1, hcurrent t ht hout, hle.trans (hascend t ht a ha hbefore hout)⟩
    · refine ⟨a, ha, ?_, hle⟩
      rw [← hbefore]
      obtain ⟨-, heq⟩ := hstep t ht
      have := @activate_refused k t.before t.input.mapping (by rw [heq]; exact hout)
      rw [heq] at this
      exact this
  · intro t ht hout hin
    exact ⟨t.input, hin, hcurrent t ht hout, Or.inl ⟨rfl, rfl, rfl⟩⟩

/-- **Bundles never go back** in a run whose v2 bundles are issued in order: a bundle that another one replaced is not
activated again, while the current bundle is accepted whenever it is offered. -/
theorem replaced_bundles_stay_out (bundles : List (Bundle k workspace)) (hbind : HashesBind bundles)
    (horder : ∀ t ∈ (activations k workspace).steps none bundles, IssuedInOrder k t.before t.input) :
    (∀ s t u, [s, t, u].Sublist ((activations k workspace).steps none bundles) → s.output = none → t.output = none →
      u.output = none → t.input.identity ≠ s.input.identity → u.input.identity ≠ s.input.identity) ∧
    ∀ t ∈ (activations k workspace).steps none bundles, ∀ b : Bundle k workspace,
      t.after = some (policyBundleAcceptanceCheckpoint b.mapping) → (activate k t.after b.mapping).2 = none := by
  have hoffered : ∀ t ∈ (activations k workspace).steps none bundles, t.input ∈ bundles := fun t ht =>
    (Machine.steps_invariant (fun _ => True) bundles none (fun _ _ _ _ => trivial) trivial t ht).2.1
  refine ⟨fun s t u hsub hs ht hu hne heq => ?_, fun t _ b hb => ?_⟩
  · have hpairs := (activated_ascends hbind horder).sublist hsub
    simp only [List.pairwise_cons, List.mem_cons, List.not_mem_nil, or_false, forall_eq_or_imp, forall_eq] at hpairs
    have hst := hpairs.1.1 hs ht
    have htu := hpairs.2.1 ht hu
    -- the hashes bind the rest of what is compared
    have hbound := hbind u.input (hoffered u (hsub.subset (by simp))) s.input (hoffered s (hsub.subset (by simp)))
      (congrArg Prod.fst heq)
    have hts := htu.trans (Or.inl ⟨heq, hbound.1, hbound.2.1⟩)
    exact hne (hst.antisymm hts).identity.symm
  · have hempty : (policyBundleAcceptanceCheckpoint b.mapping).isEmpty = false := by
      rw [checkpoint_mapping]
      rfl
    rw [hb]
    unfold activate
    simp [hempty, notDowngrade_self b]

/-! ## A v1 bundle leads back -/

def sampleClock : Clock := ⟨DateTime.fromisoformat, fun instant => instant / 1000000⟩

def fifth : Bundle sampleClock "workspace" where
  version := .number 5
  bundleHash := "sha256:5"
  payloadHash := "sha256:05"
  issuedAt := "2026-07-03T00:00:00Z"
  rest := []
  version_nonBlank := fun _ h => nomatch h
  bundleHash_nonBlank := by decide +kernel
  payloadHash_nonBlank := by decide +kernel
  issuedAt_nonBlank := by decide +kernel
  issuedAt_parses := by decide +kernel

/-- Version 6, with an issue time two days before that of version 5. -/
def sixth : Bundle sampleClock "workspace" where
  version := .number 6
  bundleHash := "sha256:6"
  payloadHash := "sha256:06"
  issuedAt := "2026-07-01T00:00:00Z"
  rest := []
  version_nonBlank := fun _ h => nomatch h
  bundleHash_nonBlank := by decide +kernel
  payloadHash_nonBlank := by decide +kernel
  issuedAt_nonBlank := by decide +kernel
  issuedAt_parses := by decide +kernel

def legacy (issuedAt : String) (h : NonBlank issuedAt)
    (hparses : (parsePolicyBundleTimestamp sampleClock issuedAt).isSome = true) : Bundle sampleClock "workspace" where
  version := .text "policy-v1"
  bundleHash := "sha256:1"
  payloadHash := "01"
  issuedAt := issuedAt
  rest := []
  version_nonBlank := fun s h => by
    obtain rfl := BundleVersion.text.inj h
    decide +kernel
  bundleHash_nonBlank := by decide +kernel
  payloadHash_nonBlank := by decide +kernel
  issuedAt_nonBlank := h
  issuedAt_parses := hparses

def legacyBetween : Bundle sampleClock "workspace" :=
  legacy "2026-07-02T00:00:00Z" (by decide +kernel) (by decide +kernel)

def legacyAfter : Bundle sampleClock "workspace" :=
  legacy "2026-07-04T00:00:00Z" (by decide +kernel) (by decide +kernel)

/-- Version 5 is replaced by version 6, that by a v1 bundle of the day between, and that by version 5 again. -/
theorem older_issue_time_leads_back :
    ((activations sampleClock "workspace").steps none [fifth, sixth, legacyBetween, fifth]).map
      Machine.Taken.output = [none, none, none, none] ∧
    fifth.identity ≠ sixth.identity ∧ fifth.identity ≠ legacyBetween.identity := by
  decide +kernel

/-- Version 6 as it is issued after version 5. -/
def sixthAfter : Bundle sampleClock "workspace" :=
  { sixth with
    issuedAt := "2026-07-03T12:00:00Z"
    issuedAt_nonBlank := by decide +kernel
    issuedAt_parses := by decide +kernel }

theorem issuedInOrder_checkpoint {a b : Bundle k workspace} (h : a.time ≤ b.time) :
    IssuedInOrder k (some (policyBundleAcceptanceCheckpoint a.mapping)) b := by
  intro existing m n issuedAt time hrow _ _ _ hissued hparsed
  cases hrow
  rw [checkpoint_mapping] at hissued
  simp only [PyDict.get_cons, String.reduceEq, if_true, if_false,
    nonEmptyString_of_nonBlank a.issuedAt_nonBlank] at hissued
  cases hissued
  rw [parse_issuedAt] at hparsed
  cases hparsed
  exact h

/-- Version 5 is replaced by a version 6 of a later issue time, and that by a v1 bundle; it stays replaced. -/
theorem fifth_stays_replaced :
    ((activations sampleClock "workspace").steps none [fifth, sixthAfter, legacyAfter, fifth]).map
      Machine.Taken.output = [none, none, none, some "bundle_version_downgrade"] ∧
    (∀ s t u, [s, t, u].Sublist ((activations sampleClock "workspace").steps none
        [fifth, sixthAfter, legacyAfter, fifth]) →
      s.output = none → t.output = none → u.output = none → t.input.identity ≠ s.input.identity →
      u.input.identity ≠ s.input.identity) ∧
    ∀ t ∈ (activations sampleClock "workspace").steps none [fifth, sixthAfter, legacyAfter, fifth],
      ∀ b : Bundle sampleClock "workspace", t.after = some (policyBundleAcceptanceCheckpoint b.mapping) →
      (activate sampleClock t.after b.mapping).2 = none := by
  refine ⟨by decide +kernel, replaced_bundles_stay_out [fifth, sixthAfter, legacyAfter, fifth] ?_ ?_⟩
  · intro a ha b hb h
    simp only [List.mem_cons, List.not_mem_nil, or_false] at ha hb
    rcases ha with rfl | rfl | rfl | rfl
    all_goals rcases hb with rfl | rfl | rfl | rfl
    all_goals first
      | exact ⟨rfl, rfl, fun _ _ => rfl⟩
      | exact absurd h (by decide)
  · intro t ht
    simp only [Machine.steps, List.mem_cons, List.not_mem_nil, or_false] at ht
    have hsecond := (@activate_accepted sampleClock (some (policyBundleAcceptanceCheckpoint fifth.mapping))
      sixthAfter.mapping (by decide +kernel)).1
    have hthird := (@activate_accepted sampleClock (some (policyBundleAcceptanceCheckpoint sixthAfter.mapping))
      legacyAfter.mapping (by decide +kernel)).1
    rcases ht with rfl | rfl | rfl | rfl
    · intro existing m n issuedAt time hrow
      cases hrow
    · exact issuedInOrder_checkpoint (by decide +kernel)
    · show IssuedInOrder sampleClock (activate sampleClock (some (policyBundleAcceptanceCheckpoint fifth.mapping))
        sixthAfter.mapping).1 legacyAfter
      rw [hsecond]
      exact issuedInOrder_checkpoint (by decide +kernel)
    · show IssuedInOrder sampleClock (activate sampleClock (activate sampleClock
        (some (policyBundleAcceptanceCheckpoint fifth.mapping)) sixthAfter.mapping).1 legacyAfter.mapping).1 fifth
      rw [hsecond, hthird]
      -- a v1 bundle is not of a smaller version
      intro existing m n issuedAt time hrow hm
      cases hrow
      cases hm

end Guard.PolicyBundle
