import HolGuard.Lib.Checks
import HolGuard.Lib.PyObject
import HolGuard.Lib.PyTime
/-!
# Differences of policy documents

`_classify_rule_changes` of `policy_document_diff.py`: which changes between two validated documents broaden, narrow or
relax a rule.  A rule covers a request at an instant when it is enabled, unexpired and each of its match fields has a
value of the request.

The reported relaxations are changes of effect, shorter restrictive lifetimes, broader allows, new allows and removed
blocks.  A narrower block, a moved or longer allow and an allow that is enabled again are reported elsewhere or not at
all, so an empty report bounds the coverage only of the rules these do not concern (`unrelaxed_covers`).
-/
namespace Guard.PolicyDocument

open Lib

inductive Effect where
  | allow
  | block
  | review
  | ignore
deriving DecidableEq

def Effect.text : Effect → String
  | .allow => "allow"
  | .block => "block"
  | .review => "review"
  | .ignore => "ignore"

def Effect.restrictive : Effect → Bool
  | .block | .review => true
  | .allow | .ignore => false

inductive LifetimeMode where
  | once
  | session
  | project
  | machine
  | workspace
  | team
  | permanent
  | until
deriving DecidableEq

/-- `PolicyLifetime` -/
structure Lifetime where
  mode : LifetimeMode
  expiresAt : Option String
  extensions : List (String × String)
deriving DecidableEq

/-- `PolicyRule` with list-valued match fields; `rest` holds the description, the provenance and the extensions in
canonical text. -/
structure Rule where
  id : String
  enabled : Bool
  effect : Effect
  fields : List (String × List String)
  lifetime : Lifetime
  rest : List (String × String)
deriving DecidableEq

/-- `text.replace("Z", "+00:00")` -/
def zuluReplaced (text : String) : String :=
  String.ofList (text.toList.flatMap (fun c => if c = 'Z' then "+00:00".toList else [c]))

/-- The instant a stored expiry names. -/
def expiryInstant (read : String → Option DateTime) (text : String) : Option Int :=
  (read (zuluReplaced text)).map DateTime.utcInstant

/-- The schema: an expiry belongs to the mode `until`, and is a timestamp. -/
structure Lifetime.Valid (read : String → Option DateTime) (l : Lifetime) : Prop where
  expires : l.expiresAt.isSome = true ↔ l.mode = .until
  timestamp : ∀ text, l.expiresAt = some text → (expiryInstant read text).isSome = true

/-- `GuardPolicyDocument` as the strict parser accepts it. -/
structure Document (read : String → Option DateTime) where
  defaults : PyDict
  rules : List Rule
  ids_nodup : (rules.map Rule.id).Nodup
  lifetimes_valid : ∀ r ∈ rules, r.lifetime.Valid read

/-! ## Classification -/

/-- `_match_fields`: the fields that constrain. -/
def Rule.matchFields (r : Rule) : List (String × List String) := r.fields.filter (fun f => !f.2.isEmpty)

def matchContains (container contained : Rule) : Bool :=
  container.matchFields.all (fun f =>
    match contained.matchFields.lookup f.1 with
    | none => false
    | some values => values.all (fun v => f.2.contains v))

def restrictiveLifetimeRelaxed (read : String → Option DateTime) (previous current : Rule) : Bool :=
  if previous.lifetime = current.lifetime then false
  else if previous.lifetime.mode = .permanent then decide (current.lifetime.mode ≠ .permanent)
  else if current.lifetime.mode = .permanent then false
  else if previous.lifetime.mode ≠ current.lifetime.mode then true
  else
    match previous.lifetime.expiresAt, current.lifetime.expiresAt with
    | none, currentExpiry => currentExpiry.isSome
    | some _, none => false
    | some previousExpiry, some currentExpiry =>
      match expiryInstant read previousExpiry, expiryInstant read currentExpiry with
      | some p, some c => decide (c < p)
      | _, _ => true

def defaultEnforcementStrength : String → Option Nat
  | "allow" | "ignore" | "observe" => some 0
  | "warn" | "review" | "prompt" => some 1
  | "require-reapproval" => some 2
  | "block" | "enforce" => some 3
  | _ => none

def defaultText : PyObject → String
  | .none => "None"
  | .bool b => if b then "True" else "False"
  | .int i => toString i
  | .str s => s
  | _ => ""

def sortedSet (texts : List String) : List String := texts.dedup.mergeSort (fun a b => decide (a ≤ b))

def changedDefaults (baseline candidate : PyDict) : List String :=
  (sortedSet (baseline.map Prod.fst ++ candidate.map Prod.fst)).filter (fun key =>
    !PyObject.scalarEq (PyDict.get baseline key) (PyDict.get candidate key))

def classifyDefaultChanges (baseline candidate : PyDict) : List String × List String :=
  let changed := changedDefaults baseline candidate
  (changed.map (fun key => "defaults." ++ key ++ ":" ++ defaultText (PyDict.get baseline key) ++ "->" ++
      defaultText (PyDict.get candidate key)),
    (changed.filter (fun key =>
      match (PyDict.get baseline key).text?.bind defaultEnforcementStrength,
          (PyDict.get candidate key).text?.bind defaultEnforcementStrength with
      | some previous, some current => decide (current < previous)
      | _, _ => false)).map (fun key => "defaults." ++ key))

def ruleWithId (rules : List Rule) (id : String) : Option Rule := rules.find? (fun r => r.id == id)

def sharedRules (baseline candidate : List Rule) : List (Rule × Rule) :=
  (sortedSet (baseline.map Rule.id)).filterMap (fun id =>
    match ruleWithId baseline id, ruleWithId candidate id with
    | some previous, some current => some (previous, current)
    | _, _ => none)

def rulesWithout (rules others : List Rule) : List Rule :=
  ((sortedSet (rules.map Rule.id)).filterMap (ruleWithId rules)).filter (fun r => !(others.map Rule.id).contains r.id)

def relaxes (read : String → Option DateTime) (previous current : Rule) : Bool :=
  let relaxesEffect :=
    previous.enabled && previous.effect.restrictive && (!current.enabled || !current.effect.restrictive)
  let relaxesLifetime := previous.enabled && current.enabled && previous.effect.restrictive &&
    current.effect.restrictive && restrictiveLifetimeRelaxed read previous current
  decide (previous ≠ current) && (relaxesEffect || relaxesLifetime ||
    current.enabled && !current.effect.restrictive && matchContains current previous && !matchContains previous current)

def actionText (r : Rule) : String := if r.enabled then r.effect.text else "disabled"

structure RuleChanges where
  broadened : List String
  narrowed : List String
  unchanged : List String
  actionChanges : List String
  broadRelaxing : List String

/-- `_classify_rule_changes`; two rules have equal mappings when they are equal. -/
def classifyRuleChanges {read : String → Option DateTime} (baseline candidate : Document read) : RuleChanges :=
  let shared := sharedRules baseline.rules candidate.rules
  let changed := shared.filter (fun (previous, current) => decide (previous ≠ current))
  let (defaultChanges, defaultRelaxing) := classifyDefaultChanges baseline.defaults candidate.defaults
  { broadened := (changed.filter (fun (previous, current) =>
      matchContains current previous && !matchContains previous current)).map (fun q => q.1.id)
    narrowed := (changed.filter (fun (previous, current) =>
      matchContains previous current && !matchContains current previous)).map (fun q => q.1.id)
    unchanged := (shared.filter (fun (previous, current) => decide (previous = current))).map (fun q => q.1.id)
    actionChanges := (changed.filter (fun (previous, current) =>
      decide (previous.effect ≠ current.effect ∨ previous.enabled ≠ current.enabled))).map
        (fun (previous, current) => previous.id ++ ":" ++ actionText previous ++ "->" ++ actionText current) ++
      defaultChanges
    broadRelaxing := sortedSet (
      (shared.filter (fun (previous, current) => relaxes read previous current)).map (fun q => q.1.id) ++
      ((rulesWithout candidate.rules baseline.rules).filter (fun r => r.enabled && !r.effect.restrictive)).map
        Rule.id ++
      ((rulesWithout baseline.rules candidate.rules).filter (fun r => r.enabled && r.effect.restrictive)).map Rule.id ++
      defaultRelaxing) }

/-- `diff_policy_documents(...).broad_relaxing_changes` -/
def broadRelaxingChanges {read : String → Option DateTime} (baseline candidate : Document read) : List String :=
  (classifyRuleChanges baseline candidate).broadRelaxing

/-! ## Coverage -/

/-- The values a request has for each match field. -/
abbrev Request := String → List String

def Rule.unexpired (read : String → Option DateTime) (r : Rule) (instant : Int) : Bool :=
  match r.lifetime.expiresAt with
  | none => true
  | some text =>
    match expiryInstant read text with
    | none => false
    | some expiry => decide (instant < expiry)

/-- Each non-empty match field contains one of the request's values for it. -/
def Rule.matches (r : Rule) (request : Request) : Bool :=
  r.fields.all (fun f => f.2.isEmpty || f.2.any (fun v => (request f.1).contains v))

def Rule.covers (read : String → Option DateTime) (r : Rule) (request : Request) (instant : Int) : Bool :=
  r.enabled && r.unexpired read instant && r.matches request

/-- A rule of the document covers the request: a block or review, or an allow or ignore. -/
def Document.covers {read : String → Option DateTime} (d : Document read) (restrictive : Bool) (request : Request)
    (instant : Int) : Prop :=
  ∃ r ∈ d.rules, r.effect.restrictive = restrictive ∧ r.covers read request instant = true

instance {read : String → Option DateTime} (d : Document read) (restrictive : Bool) (request : Request)
    (instant : Int) : Decidable (d.covers restrictive request instant) :=
  inferInstanceAs (Decidable (∃ r ∈ d.rules, _))

theorem matches_iff {r : Rule} {request : Request} :
    r.matches request = true ↔ ∀ f ∈ r.matchFields, ∃ v ∈ f.2, v ∈ request f.1 := by
  unfold Rule.matches Rule.matchFields
  rw [List.all_eq_true]
  constructor
  · intro h f hf
    obtain ⟨hf, hne⟩ := List.mem_filter.1 hf
    simpa [show f.2.isEmpty = false by simpa using hne] using h f hf
  · intro h f hf
    by_cases hne : f.2.isEmpty = true
    · simp [hne]
    · obtain ⟨v, hv, hq⟩ := h f (List.mem_filter.2 ⟨hf, by simpa using hne⟩)
      simp only [Bool.or_eq_true, List.any_eq_true]
      exact Or.inr ⟨v, hv, by simpa using hq⟩

/-- A rule that contains another matches what the other matches. -/
theorem matches_of_contains {container contained : Rule} (h : matchContains container contained = true)
    {request : Request} (hm : contained.matches request = true) : container.matches request = true := by
  rw [matches_iff] at hm ⊢
  intro f hf
  have hcontains := List.all_eq_true.1 h f hf
  cases hl : contained.matchFields.lookup f.1 with
  | none => simp [hl] at hcontains
  | some values =>
    rw [hl] at hcontains
    have hmem : (f.1, values) ∈ contained.matchFields := by
      obtain ⟨before, after, hsplit, -⟩ := List.lookup_eq_some_iff.1 hl
      rw [hsplit]
      exact List.mem_append_right before List.mem_cons_self
    obtain ⟨v, hv, hq⟩ := hm _ hmem
    exact ⟨v, by simpa using List.all_eq_true.1 hcontains v hv, hq⟩

variable {read : String → Option DateTime}

/-- A restrictive lifetime that is not relaxed lasts at least as long. -/
theorem unexpired_of_notRelaxed {previous current : Rule} (hp : previous.lifetime.Valid read)
    (hc : current.lifetime.Valid read) (h : restrictiveLifetimeRelaxed read previous current = false) {instant : Int}
    (hu : previous.unexpired read instant = true) : current.unexpired read instant = true := by
  have hnone : current.lifetime.mode ≠ .until → current.unexpired read instant = true := by
    intro hm
    have : current.lifetime.expiresAt = none := by
      by_contra hne
      exact hm (hc.expires.1 (Option.isSome_iff_ne_none.2 hne))
    unfold Rule.unexpired
    rw [this]
  by_cases hsame : previous.lifetime = current.lifetime
  · unfold Rule.unexpired at hu ⊢
    rw [← hsame]
    exact hu
  · unfold restrictiveLifetimeRelaxed at h
    rw [if_neg hsame] at h
    by_cases hperm : current.lifetime.mode = .permanent
    · exact hnone (by rw [hperm]; decide)
    · by_cases hprev : previous.lifetime.mode = .permanent
      · simp [hprev, hperm] at h
      · rw [if_neg hprev, if_neg hperm] at h
        by_cases hmode : previous.lifetime.mode = current.lifetime.mode
        · rw [if_neg (not_not.2 hmode)] at h
          by_cases huntil : current.lifetime.mode = .until
          · obtain ⟨pe, hpe⟩ := Option.isSome_iff_exists.1 (hp.expires.2 (hmode.trans huntil))
            obtain ⟨ce, hce⟩ := Option.isSome_iff_exists.1 (hc.expires.2 huntil)
            obtain ⟨pt, hpt⟩ := Option.isSome_iff_exists.1 (hp.timestamp pe hpe)
            obtain ⟨ct, hct⟩ := Option.isSome_iff_exists.1 (hc.timestamp ce hce)
            simp only [hpe, hce, hpt, hct, decide_eq_false_iff_not, not_lt] at h
            simp only [Rule.unexpired, hpe, hpt, decide_eq_true_eq] at hu
            simp only [Rule.unexpired, hce, hct, decide_eq_true_eq]
            exact lt_of_lt_of_le hu h
          · exact hnone huntil
        · rw [if_pos hmode] at h
          cases h

/-! ## An empty report -/

theorem sortedSet_eq_nil {texts : List String} : sortedSet texts = [] ↔ texts = [] := by
  constructor
  · intro h
    refine List.eq_nil_iff_forall_not_mem.2 (fun t ht => ?_)
    have : t ∈ sortedSet texts := List.mem_mergeSort.2 (List.mem_dedup.2 ht)
    rw [h] at this
    exact absurd this List.not_mem_nil
  · rintro rfl
    simp [sortedSet]

theorem mem_sortedSet {texts : List String} {t : String} : t ∈ sortedSet texts ↔ t ∈ texts := by
  unfold sortedSet
  rw [List.mem_mergeSort, List.mem_dedup]

theorem ruleWithId_self {rules : List Rule} (hnd : (rules.map Rule.id).Nodup) {r : Rule} (hr : r ∈ rules) :
    ruleWithId rules r.id = some r := find?_of_nodup hnd hr

/-- What a report without broad relaxations says of the rules. -/
structure Unrelaxed {read : String → Option DateTime} (baseline candidate : Document read) : Prop where
  shared : ∀ p ∈ baseline.rules, ∀ c ∈ candidate.rules, p.id = c.id → relaxes read p c = false
  added : ∀ c ∈ candidate.rules, c.enabled = true → c.effect.restrictive = false → ∃ p ∈ baseline.rules, p.id = c.id
  removed : ∀ p ∈ baseline.rules, p.enabled = true → p.effect.restrictive = true → ∃ c ∈ candidate.rules, p.id = c.id

theorem mem_rulesWithout {rules others : List Rule} (hnd : (rules.map Rule.id).Nodup) {r : Rule} (hr : r ∈ rules)
    (hid : r.id ∉ others.map Rule.id) : r ∈ rulesWithout rules others := by
  refine List.mem_filter.2 ⟨List.mem_filterMap.2 ⟨r.id, ?_, ruleWithId_self hnd hr⟩, by simpa using hid⟩
  exact mem_sortedSet.2 (List.mem_map_of_mem hr)

variable {baseline candidate : Document read}

theorem unrelaxed_of_empty (h : broadRelaxingChanges baseline candidate = []) :
    Unrelaxed baseline candidate := by
  unfold broadRelaxingChanges classifyRuleChanges at h
  simp only at h
  rw [sortedSet_eq_nil, List.append_eq_nil_iff, List.append_eq_nil_iff, List.append_eq_nil_iff, List.map_eq_nil_iff,
    List.map_eq_nil_iff, List.map_eq_nil_iff, List.filter_eq_nil_iff, List.filter_eq_nil_iff,
    List.filter_eq_nil_iff] at h
  obtain ⟨⟨⟨hshared, hadded⟩, hremoved⟩, -⟩ := h
  refine ⟨fun p hp c hc hid => ?_, fun c hc hen heff => ?_, fun p hp hen heff => ?_⟩
  · have hmem : (p, c) ∈ sharedRules baseline.rules candidate.rules := by
      refine List.mem_filterMap.2 ⟨p.id, mem_sortedSet.2 (List.mem_map_of_mem hp), ?_⟩
      have hcw : ruleWithId candidate.rules p.id = some c := hid ▸ ruleWithId_self candidate.ids_nodup hc
      simp only [ruleWithId_self baseline.ids_nodup hp, hcw]
    simpa using hshared (p, c) hmem
  · by_contra hnone
    push Not at hnone
    have hid : c.id ∉ baseline.rules.map Rule.id := by
      intro hin
      obtain ⟨p, hp, hpid⟩ := List.mem_map.1 hin
      exact hnone p hp hpid
    exact hadded c (mem_rulesWithout candidate.ids_nodup hc hid) (by simp [hen, heff])
  · by_contra hnone
    push Not at hnone
    have hid : p.id ∉ candidate.rules.map Rule.id := by
      intro hin
      obtain ⟨c, hc, hcid⟩ := List.mem_map.1 hin
      exact hnone c hc hcid.symm
    exact hremoved p (mem_rulesWithout baseline.ids_nodup hp hid) (by simp [hen, heff])

/-- A covered restrictive rule stays enabled, restrictive and unexpired under its id. -/
theorem restrictive_kept (h : Unrelaxed baseline candidate) {p : Rule} (hp : p ∈ baseline.rules)
    (heff : p.effect.restrictive = true) (hen : p.enabled = true) {instant : Int}
    (hu : p.unexpired read instant = true) :
    ∃ c ∈ candidate.rules, p.id = c.id ∧ c.enabled = true ∧ c.effect.restrictive = true ∧
      c.unexpired read instant = true := by
  obtain ⟨c, hc, hid⟩ := h.removed p hp hen heff
  refine ⟨c, hc, hid, ?_⟩
  by_cases hsame : p = c
  · subst hsame
    exact ⟨hen, heff, hu⟩
  · have hrel := h.shared p hp c hc hid
    simp only [relaxes, hsame, ne_eq, not_false_eq_true, decide_true, Bool.true_and, Bool.or_eq_false_iff, hen, heff]
      at hrel
    obtain ⟨⟨heffect, hlifetime⟩, -⟩ := hrel
    simp only [Bool.not_eq_false'] at heffect
    refine ⟨heffect.1, heffect.2, ?_⟩
    simp only [heffect.1, heffect.2, Bool.true_and] at hlifetime
    exact unexpired_of_notRelaxed (baseline.lifetimes_valid p hp) (candidate.lifetimes_valid c hc) hlifetime hu

/-- An allow of the candidate whose baseline rule was enabled was an allow there, with no narrower match when the two
matches are comparable. -/
theorem relaxing_known (h : Unrelaxed baseline candidate) {c : Rule} (hc : c ∈ candidate.rules)
    (heff : c.effect.restrictive = false) (hen : c.enabled = true) {p : Rule}
    (hp : p ∈ baseline.rules) (hid : p.id = c.id) (hpen : p.enabled = true)
    (hcomp : matchContains c p = true ∨ matchContains p c = true) :
    p.effect.restrictive = false ∧ ∀ request, c.matches request = true → p.matches request = true := by
  by_cases hsame : p = c
  · subst hsame
    exact ⟨heff, fun _ hm => hm⟩
  · have hrel := h.shared p hp c hc hid
    simp only [relaxes, hsame, ne_eq, not_false_eq_true, decide_true, Bool.true_and, Bool.or_eq_false_iff, hen, hpen,
      heff] at hrel
    obtain ⟨⟨heffect, -⟩, hbroad⟩ := hrel
    refine ⟨by simpa using heffect, fun request hm => matches_of_contains ?_ hm⟩
    rcases hcomp with hcp | hpc
    · simpa [hcp] using hbroad
    · exact hpc

/-- **A report without broad relaxations** keeps the coverage of the blocks whose match is not narrowed, and adds no
coverage by allows that were enabled and unexpired under a comparable match. -/
theorem unrelaxed_covers {read : String → Option DateTime} (baseline candidate : Document read)
    (h : broadRelaxingChanges baseline candidate = []) (request : Request) (instant : Int) :
    (∀ p ∈ baseline.rules, p.effect.restrictive = true → p.covers read request instant = true →
      (∀ c ∈ candidate.rules, p.id = c.id → matchContains c p = true) →
      candidate.covers true request instant) ∧
    ∀ c ∈ candidate.rules, c.effect.restrictive = false → c.covers read request instant = true →
      (∀ p ∈ baseline.rules, p.id = c.id → p.enabled = true ∧ p.unexpired read instant = true ∧
        (matchContains c p = true ∨ matchContains p c = true)) →
      baseline.covers false request instant := by
  have hu := unrelaxed_of_empty h
  refine ⟨fun p hp heff hcov hmatch => ?_, fun c hc heff hcov hbase => ?_⟩
  · simp only [Rule.covers, Bool.and_eq_true] at hcov
    obtain ⟨⟨hen, hexp⟩, hm⟩ := hcov
    obtain ⟨c, hc, hid, hcen, hceff, hcexp⟩ := restrictive_kept hu hp heff hen hexp
    refine ⟨c, hc, hceff, ?_⟩
    simp only [Rule.covers, Bool.and_eq_true]
    exact ⟨⟨hcen, hcexp⟩, matches_of_contains (hmatch c hc hid) hm⟩
  · simp only [Rule.covers, Bool.and_eq_true] at hcov
    obtain ⟨⟨hen, -⟩, hm⟩ := hcov
    obtain ⟨p, hp, hid⟩ := hu.added c hc hen heff
    obtain ⟨hpen, hpexp, hcomp⟩ := hbase p hp hid
    obtain ⟨hpeff, hmatches⟩ := relaxing_known hu hc heff hen hp hid hpen hcomp
    refine ⟨p, hp, hpeff, ?_⟩
    simp only [Rule.covers, Bool.and_eq_true]
    exact ⟨⟨hpen, hpexp⟩, hmatches request hm⟩

/-! ## Changes outside the report -/

def sampleRule (enabled : Bool) (effect : Effect) (harnesses : List String) : Rule where
  id := "rule"
  enabled := enabled
  effect := effect
  fields := [("harnesses", harnesses)]
  lifetime := ⟨.permanent, none, []⟩
  rest := []

def sampleDocument (enabled : Bool) (effect : Effect) (harnesses : List String) :
    Document DateTime.fromisoformat where
  defaults := [("mode", .str "enforce")]
  rules := [sampleRule enabled effect harnesses]
  ids_nodup := List.nodup_singleton _
  lifetimes_valid := by
    intro r hr
    rw [List.mem_singleton.1 hr]
    exact ⟨by simp [sampleRule], fun text h => nomatch h⟩

def expiredAllow : Document DateTime.fromisoformat where
  defaults := [("mode", .str "enforce")]
  rules := [{ sampleRule true .allow ["cursor"] with lifetime := ⟨.until, some "1970-01-01T00:00:00Z", []⟩ }]
  ids_nodup := List.nodup_singleton _
  lifetimes_valid := by
    intro r hr
    rw [List.mem_singleton.1 hr]
    refine ⟨by simp, fun text h => ?_⟩
    obtain rfl := Option.some.inj h
    decide +kernel

def cursorRequest : Request := fun field => if field = "harnesses" then ["cursor"] else []

/-- The report on a change is empty, although the change uncovers the request (`true`) or newly covers it. -/
def Unreported (baseline candidate : Document DateTime.fromisoformat) (restrictive : Bool) : Prop :=
  broadRelaxingChanges baseline candidate = [] ∧
    if restrictive then baseline.covers true cursorRequest 0 ∧ ¬ candidate.covers true cursorRequest 0
    else candidate.covers false cursorRequest 0 ∧ ¬ baseline.covers false cursorRequest 0

instance (baseline candidate : Document DateTime.fromisoformat) (restrictive : Bool) :
    Decidable (Unreported baseline candidate restrictive) :=
  inferInstanceAs (Decidable (_ ∧ _))

/-- A block that no longer names a harness, an allow that moved to another harness, one that was enabled again and one
that no longer expires. -/
theorem narrowed_block_unreported :
    Unreported (sampleDocument true .block ["codex", "cursor"]) (sampleDocument true .block ["codex"]) true ∧
    Unreported (sampleDocument true .allow ["codex"]) (sampleDocument true .allow ["cursor"]) false ∧
    Unreported (sampleDocument false .allow ["cursor"]) (sampleDocument true .allow ["cursor"]) false ∧
    Unreported expiredAllow (sampleDocument true .allow ["cursor"]) false := by
  decide +kernel

theorem broadened_block_covers :
    (sampleDocument true .block ["codex", "cursor"]).covers true cursorRequest 0 :=
  (unrelaxed_covers (sampleDocument true .block ["cursor"]) (sampleDocument true .block ["codex", "cursor"])
    (by decide +kernel) cursorRequest 0).1 (sampleRule true .block ["cursor"]) (List.mem_singleton.2 rfl) rfl
    (by decide +kernel) (by
      intro c hc _
      rw [List.mem_singleton.1 hc]
      decide +kernel)

end Guard.PolicyDocument
