import HolGuard.Archive.PosixPath
import HolGuard.Lib.Checks
/-!
# Members that stay inside

`unsafe_member_reason` of `tar_policy.rs` normalises and joins texts and looks at the first component.  What it decides
is where the name and the link target lead from the extraction directory.
-/
namespace Guard
namespace Archive

open Lib (Bytes)

inductive EntryType where
  | regular | directory | symlink | link | char | block | fifo | other
  deriving DecidableEq

structure Entry where
  pathBytes : Bytes
  entryType : EntryType
  linkNameBytes : Option Bytes

instance decidableIsAbsolute (path : Bytes) : Decidable (IsAbsolute path) :=
  inferInstanceAs (Decidable ([slash] <+: path))

def dirname (path : Bytes) : Bytes :=
  let head := path.rdropWhile (· != slash)
  if head.all (· == slash) then head else head.rdropWhile (· == slash)

def join (a b : Bytes) : Bytes :=
  if IsAbsolute b then b
  else if a = [] ∨ a.getLast? = some slash then a ++ b
  else a ++ slash :: b

def hasControlCharacter (path : Bytes) : Bool := path.any (fun b => b ≤ 0x1F || b == 0x7F)

def replaceBackslashes (bytes : Bytes) : Bytes := bytes.map (fun b => if b = 0x5C then slash else b)

def leavesArchive (path : Bytes) : Bool := path == dotDot || (dotDot ++ [slash]).isPrefixOf path

def colon : UInt8 := 0x3A

/-- The first component has a colon. -/
def namesDrive (path : Bytes) : Bool := ((path.splitOn slash).head?.getD []).contains colon

/-- The checks on a normalised path. -/
def leadsOut (path : Bytes) : Bool := leavesArchive path || namesDrive path

def Entry.rawName (entry : Entry) : Bytes := replaceBackslashes entry.pathBytes

def Entry.rawTarget (entry : Entry) : Bytes := (entry.linkNameBytes.map replaceBackslashes).getD []

def Entry.resolvedTarget (entry : Entry) : Bytes :=
  if entry.entryType = .link then normpath entry.rawTarget
  else normpath (join (dirname (normpath entry.rawName)) entry.rawTarget)

def unsafeMemberReason (entry : Entry) : Option String :=
  if hasControlCharacter entry.rawName ∨ IsAbsolute entry.rawName ∨ normpath entry.rawName = [dot] ∨
      leadsOut (normpath entry.rawName) then some "unsafe_path"
  else match entry.entryType with
    | .char | .block | .fifo => some "special_file"
    | .symlink | .link =>
      if entry.rawTarget = [] ∨ IsAbsolute entry.rawTarget ∨ leadsOut entry.resolvedTarget then some "unsafe_link"
      else none
    | _ => none

/-! ## Where a normalised path leads -/

variable {path target : Bytes} {names : List Bytes}

theorem leavesArchive_iff : leavesArchive path ↔ (path.splitOn slash).head? = some dotDot := by
  rw [leavesArchive, Bool.or_eq_true, beq_iff_eq, List.isPrefixOf_iff_prefix]
  constructor
  · rintro (rfl | ⟨rest, rfl⟩)
    · decide
    · rw [List.append_assoc, List.singleton_append, List.splitOn_append_cons_self]
      rfl
  · intro h
    obtain ⟨tail, htail⟩ := List.head?_eq_some_iff.1 h
    have hjoin : path = [slash].intercalate (dotDot :: tail) := by rw [← htail, List.intercalate_splitOn]
    cases tail with
    | nil => exact .inl hjoin
    | cons next tail =>
      rw [List.intercalate_cons_cons] at hjoin
      exact .inr ⟨_, hjoin.symm⟩

/-- A relative path goes above its start, comes back to it, or leads to the names that it normalises to. -/
theorem normpath_walk (hrelative : ¬ IsAbsolute path) :
    (walk [] (path.splitOn slash) = none ∧ leavesArchive (normpath path)) ∨
    (walk [] (path.splitOn slash) = some [] ∧ normpath path = [dot]) ∨
    ∃ names, walk [] (path.splitOn slash) = some names ∧ names ≠ [] ∧ (∀ name ∈ names, IsName name) ∧
      (normpath path).splitOn slash = names := by
  have hstart : Stack 0 [] 0 [] := by
    refine ⟨by simp, fun _ => rfl, fun _ => ⟨rfl, ?_, fun start => ?_⟩⟩
    · simp [depths, height]
    · simp [walk]
  obtain ⟨ups, names, hfold, hstack⟩ := hstart.pushAll (fun comp (hcomp : comp ∈ path.splitOn slash) =>
    Lib.notMem_of_mem_splitOn hcomp)
  have hwalk := (hstack.reached rfl).walks []
  have hnorm : normpath path = joined 0 (List.replicate ups dotDot ++ names) := by
    rw [normpath, not_not.1 (isAbsolute_iff.not.1 hrelative)]
    exact congrArg (joined 0) hfold
  obtain hcomps | ⟨b, rest, hjoin, -, hsplit⟩ := intercalate_cases hstack.clean
  · obtain ⟨hups, rfl⟩ := List.append_eq_nil_iff.1 hcomps
    obtain rfl : ups = 0 := by simpa using hups
    exact .inr (.inl ⟨hwalk, hnorm⟩)
  have htext : normpath path = b :: rest := by simp [hnorm, joined, hjoin]
  rw [← htext] at hsplit
  cases ups with
  | zero => exact .inr (.inr ⟨names, hwalk, fun e => by simp [e, List.splitOn_ne_nil] at hsplit, hstack.named, hsplit⟩)
  | succ n => exact .inl ⟨hwalk, leavesArchive_iff.2 (by rw [hsplit]; rfl)⟩

/-- The path is relative and leads from `start` to `place`, whose first name has no colon. -/
def LeadsTo (start : List Bytes) (path : Bytes) (place : List Bytes) : Prop :=
  ¬ IsAbsolute path ∧ walk start (path.splitOn slash) = some place ∧ ∀ first ∈ place.head?, colon ∉ first

theorem leadsOut_eq_false (hrelative : ¬ IsAbsolute path) :
    leadsOut (normpath path) = false ↔ ∃ place, LeadsTo [] path place := by
  unfold LeadsTo leadsOut
  obtain ⟨hwalk, hleaves⟩ | ⟨hwalk, hdot⟩ | ⟨names, hwalk, hne, hnamed, hsplit⟩ := normpath_walk hrelative
  · simp [hwalk, hleaves]
  · rw [hwalk, hdot]
    exact iff_of_true (by decide) ⟨[], hrelative, rfl, by simp⟩
  · obtain ⟨first, rest, rfl⟩ := List.exists_cons_of_ne_nil hne
    have hstays : leavesArchive (normpath path) = false := by
      rw [← Bool.not_eq_true, leavesArchive_iff, hsplit, List.head?_cons, Option.some.injEq]
      exact (hnamed first List.mem_cons_self).2.2.1
    simp [hrelative, hwalk, hstays, namesDrive, hsplit]

theorem dirname_concat {start last : Bytes} {x : UInt8} (hx : x ≠ slash) (hlast : slash ∉ last) :
    dirname (start ++ [x] ++ slash :: last) = start ++ [x] := by
  have hdrop : (start ++ [x] ++ slash :: last).rdropWhile (· != slash) = start ++ [x] ++ [slash] := by
    rw [List.rdropWhile, List.reverse_append, List.reverse_cons, List.append_assoc, List.dropWhile_append_of_pos]
    · simp
    · intro b hb
      exact bne_iff_ne.2 fun e => hlast (e ▸ List.mem_reverse.1 hb)
  rw [dirname, hdrop, List.rdropWhile_concat_pos _ _ _ (by simp), List.rdropWhile_concat_neg _ _ _ (by simpa using hx)]
  simp [hx]

/-- A target is walked from the directory of the member that names it. -/
theorem splitOn_join_dirname (hsplit : path.splitOn slash = names) (hnamed : ∀ name ∈ names, IsName name)
    (htarget : ¬ IsAbsolute target) :
    (join (dirname path) target).splitOn slash = names.dropLast ++ target.splitOn slash ∧
      ¬ IsAbsolute (join (dirname path) target) := by
  have hpath : path = [slash].intercalate names := by rw [← hsplit, List.intercalate_splitOn]
  obtain rfl | ⟨init, last, rfl⟩ := List.eq_nil_or_concat' names
  · exact absurd hsplit (List.splitOn_ne_nil _ _)
  rw [List.dropLast_concat]
  have hslash : slash ∉ last := (hnamed last (by simp)).2.2.2
  have hinit : ∀ name ∈ init, IsName name := fun name hname => hnamed name (by simp [hname])
  obtain rfl | ⟨b, rest, -, hb, hparts⟩ := intercalate_cases fun name h => ⟨(hinit name h).1, (hinit name h).2.2.2⟩
  · have hdrop : path.rdropWhile (· != slash) = [] := by
      rw [List.rdropWhile_eq_nil_iff, hpath]
      intro x hx
      exact bne_iff_ne.2 fun e => hslash (by simpa [e] using hx)
    rw [dirname, hdrop, join, if_neg htarget, if_pos (.inl rfl)]
    exact ⟨rfl, htarget⟩
  · obtain ⟨start, x, hend⟩ := (List.eq_nil_or_concat' (b :: rest)).resolve_left (List.cons_ne_nil _ _)
    have hx : x ≠ slash := by
      rintro rfl
      rw [hend, List.splitOn_append_cons_self] at hparts
      exact (hinit [] (hparts ▸ by simp)).1 rfl
    have hname : path = (b :: rest) ++ slash :: last := by
      have hfields : ((b :: rest) ++ slash :: last).splitOn slash = init ++ [last] := by
        rw [List.splitOn_append_cons_self, hparts, List.splitOn_eq_singleton hslash]
      rw [hpath, ← hfields, List.intercalate_splitOn]
    rw [hname, hend, dirname_concat hx hslash, ← hend, join, if_neg htarget, if_neg (by simp [hend, hx]),
      List.splitOn_append_cons_self, hparts]
    exact ⟨rfl, fun h => hb (by simpa [IsAbsolute, eq_comm] using h)⟩

theorem walk_names (hnamed : ∀ name ∈ names, IsName name) (start rest : List Bytes) :
    walk start (names ++ rest) = walk (start ++ names) rest := by
  induction names generalizing start with
  | nil => simp
  | cons name names ih =>
    obtain ⟨hname, hnames⟩ := List.forall_mem_cons.1 hnamed
    have hstep : walkStep start name = some (start ++ [name]) := by
      rw [walkStep, if_neg (not_or.2 ⟨hname.1, hname.2.1⟩), if_neg hname.2.2.1]
    rw [walk, List.cons_append, List.foldlM_cons, hstep]
    exact (ih hnames _).trans (by rw [List.append_assoc, List.singleton_append])

variable {entry : Entry}

/-- Where the target of a link is walked from: the extraction directory, or the member's own directory. -/
def Entry.base (entry : Entry) (names : List Bytes) : List Bytes :=
  if entry.entryType = .link then [] else names.dropLast

theorem resolvedTarget_stays (hsplit : (normpath entry.rawName).splitOn slash = names)
    (hnamed : ∀ name ∈ names, IsName name) (htarget : ¬ IsAbsolute entry.rawTarget) :
    leadsOut entry.resolvedTarget = false ↔ ∃ inside, LeadsTo (entry.base names) entry.rawTarget inside := by
  unfold Entry.resolvedTarget Entry.base
  by_cases hlink : entry.entryType = .link
  · rw [if_pos hlink, if_pos hlink]
    exact leadsOut_eq_false htarget
  · obtain ⟨hparts, hrelative⟩ := splitOn_join_dirname hsplit hnamed htarget
    have hinit : ∀ name ∈ names.dropLast, IsName name := fun name h => hnamed name (List.mem_of_mem_dropLast h)
    rw [if_neg hlink, if_neg hlink, leadsOut_eq_false hrelative]
    simp only [LeadsTo, hparts, walk_names hinit, List.nil_append, hrelative, htarget]

/-- **The members that pass stay inside.**  A member passes exactly if it is no special file, its name has no control
character and leads from the extraction directory to a place strictly below, and a link's target leads from the member's
directory, a hard link's from the extraction directory, to a place inside, with no step above the extraction
directory. -/
theorem unsafe_member_reason_none_iff (entry : Entry) : unsafeMemberReason entry = none ↔
    entry.entryType ∉ [.char, .block, .fifo] ∧ hasControlCharacter entry.rawName = false ∧
    ∃ names, names ≠ [] ∧ LeadsTo [] entry.rawName names ∧
      (entry.entryType = .symlink ∨ entry.entryType = .link →
        entry.rawTarget ≠ [] ∧ ∃ inside, LeadsTo (entry.base names) entry.rawTarget inside) := by
  by_cases habsolute : IsAbsolute entry.rawName
  · simp [unsafeMemberReason, LeadsTo, habsolute]
  obtain ⟨hwalk, hleaves⟩ | ⟨hwalk, hdot⟩ | ⟨names, hwalk, hne, hnamed, hsplit⟩ := normpath_walk habsolute
  · simp [unsafeMemberReason, leadsOut, hleaves, LeadsTo, hwalk]
  · simp [unsafeMemberReason, hdot, LeadsTo, hwalk]
  have hdot : normpath entry.rawName ≠ [dot] := by
    intro hdot
    rw [hdot] at hsplit
    exact (hnamed [dot] (by rw [← hsplit]; decide)).2.1 rfl
  have hlink : ¬ (entry.rawTarget = [] ∨ IsAbsolute entry.rawTarget ∨ leadsOut entry.resolvedTarget) ↔
      entry.rawTarget ≠ [] ∧ ∃ inside, LeadsTo (entry.base names) entry.rawTarget inside := by
    by_cases htarget : IsAbsolute entry.rawTarget
    · simp [LeadsTo, htarget]
    · simp [← resolvedTarget_stays hsplit hnamed htarget, htarget]
  have hplace : ∀ place, LeadsTo [] entry.rawName place ↔ leadsOut (normpath entry.rawName) = false ∧
      names = place := by
    simp [leadsOut_eq_false habsolute, LeadsTo, hwalk, habsolute, and_comm]
  simp only [hplace, unsafeMemberReason]
  cases entry.entryType <;> simp [Lib.ite_some_eq_none, ← hlink, habsolute, hdot, hne, and_assoc]

end Archive
end Guard
