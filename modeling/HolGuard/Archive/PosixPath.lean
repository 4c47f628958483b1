import HolGuard.Lib.Bytes
/-!
# POSIX paths as bytes

`normpath` of `posix_path.rs`, CPython's `posixpath.normpath` on the raw bytes of a member name.  Its loop keeps a stack
of components; the invariant is that the stack is what the walk along the path leaves above the lowest point it reached
(`Reached`).
-/
namespace Guard
namespace Archive

open Lib (Bytes)

def slash : UInt8 := 0x2F

def dot : UInt8 := 0x2E

def dotDot : Bytes := [dot, dot]

/-- One component of the path against the components kept so far. -/
def pushComponent (initialSlashes : Nat) (comps : List Bytes) (comp : Bytes) : List Bytes :=
  if comp = [] ∨ comp = [dot] then comps
  else if comp ≠ dotDot ∨ (initialSlashes = 0 ∧ comps = []) ∨ comps.getLast? = some dotDot then comps ++ [comp]
  else comps.dropLast

def initialSlashes (path : Bytes) : Nat :=
  if [slash, slash].isPrefixOf path && !([slash, slash, slash].isPrefixOf path) then 2
  else if [slash].isPrefixOf path then 1
  else 0

def joined (initial : Nat) (comps : List Bytes) : Bytes :=
  let out := List.replicate initial slash ++ [slash].intercalate comps
  if out = [] then [dot] else out

def normpath (path : Bytes) : Bytes :=
  joined (initialSlashes path) ((path.splitOn slash).foldl (pushComponent (initialSlashes path)) [])

/-! ## What a path says -/

def IsAbsolute (path : Bytes) : Prop := [slash] <+: path

/-- The components of a path after the slashes of its root. -/
def components (path : Bytes) : List Bytes :=
  match path.dropWhile (· == slash) with
  | [] => []
  | rest => rest.splitOn slash

def IsName (comp : Bytes) : Prop := comp ≠ [] ∧ comp ≠ [dot] ∧ comp ≠ dotDot ∧ slash ∉ comp

/-- How far a component leads down. -/
def descent (comp : Bytes) : Int :=
  if comp = [] ∨ comp = [dot] then 0 else if comp = dotDot then -1 else 1

def height (comps : List Bytes) : Int := (comps.map descent).sum

/-- One step of a walk from a directory, given by the names from the root to it; there is no way up from the root. -/
def walkStep (place : List Bytes) (comp : Bytes) : Option (List Bytes) :=
  if comp = [] ∨ comp = [dot] then some place
  else if comp = dotDot then (if place = [] then none else some place.dropLast)
  else some (place ++ [comp])

def walk (start comps : List Bytes) : Option (List Bytes) := comps.foldlM walkStep start

/-- The depths below the start that the parts of a walk end at. -/
def depths (comps : List Bytes) : Set Int := {d | ∃ start, start <+: comps ∧ d = -height start}

/-! ## The loop -/

section Loop

variable {initial ups : Nat} {names done : List Bytes} {comp : Bytes}

theorem height_concat : height (done ++ [comp]) = height done + descent comp := by simp [height]

theorem depths_concat : depths (done ++ [comp]) = insert (-(height done + descent comp)) (depths done) := by
  ext d
  simp only [depths, Set.mem_ofPred_eq, Set.mem_insert_iff, List.prefix_concat_iff, or_and_right, exists_or,
    exists_eq_left, height_concat]

theorem walk_concat (start : List Bytes) :
    walk start (done ++ [comp]) = (walk start done).bind (fun place => walkStep place comp) := by
  simp [walk, List.foldlM_append, List.foldlM_cons, List.foldlM_nil]

/-- What the walk along the components `done` has come to: `ups` levels above the start at its highest, and down from
there along `names`. -/
structure Reached (done : List Bytes) (ups : Nat) (names : List Bytes) : Prop where
  level : height done = names.length - ups
  lowest : IsGreatest (depths done) ups
  walks : ∀ start, walk start done =
    if start.length < ups then none else some (start.take (start.length - ups) ++ names)

/-- The stack of the loop: what leads up stands first, and only in a relative path. -/
structure Stack (initial : Nat) (done : List Bytes) (ups : Nat) (names : List Bytes) : Prop where
  named : ∀ name ∈ names, IsName name
  rooted : initial ≠ 0 → ups = 0
  reached : initial = 0 → Reached done ups names

theorem dotDot_ne : dotDot ≠ [] ∧ dotDot ≠ [dot] := by decide

theorem Reached.concat (h : Reached done ups names) {ups' : Nat} {names' : List Bytes}
    (hlevel : (names.length : Int) - ups + descent comp = names'.length - ups')
    (hups : (ups' : Int) = max (-((names.length : Int) - ups + descent comp)) ups)
    (hwalk : ∀ start : List Bytes, ups ≤ start.length → walkStep (start.take (start.length - ups) ++ names) comp =
      if start.length < ups' then none else some (start.take (start.length - ups') ++ names')) :
    Reached (done ++ [comp]) ups' names' := by
  refine ⟨by rw [height_concat, h.level, hlevel], ?_, fun start => ?_⟩
  · rw [depths_concat, hups, h.level]
    exact h.lowest.insert _
  · rw [walk_concat, h.walks]
    split
    · rw [if_pos (by omega)]
      rfl
    · exact hwalk start (by omega)

theorem Stack.skip (h : Stack initial done ups names) (hcomp : comp = [] ∨ comp = [dot]) :
    Stack initial (done ++ [comp]) ups names := by
  refine ⟨h.named, h.rooted, fun hi => (h.reached hi).concat ?_ ?_ fun start hstart => ?_⟩
  · simp [descent, hcomp]
  · simp [descent, hcomp]
  · rw [walkStep, if_pos hcomp, if_neg (by omega)]

theorem Stack.down (h : Stack initial done ups names) (hcomp : IsName comp) :
    Stack initial (done ++ [comp]) ups (names ++ [comp]) := by
  have hskip : ¬ (comp = [] ∨ comp = [dot]) := not_or.2 ⟨hcomp.1, hcomp.2.1⟩
  refine ⟨?_, h.rooted, fun hi => (h.reached hi).concat ?_ ?_ fun start hstart => ?_⟩
  · simpa [or_imp, forall_and] using ⟨h.named, hcomp⟩
  · simp [descent, hskip, hcomp.2.2.1]
    omega
  · simp [descent, hskip, hcomp.2.2.1]
    omega
  · rw [walkStep, if_neg hskip, if_neg hcomp.2.2.1, if_neg (by omega), List.append_assoc]

theorem Stack.up (h : Stack initial done ups names) (hnames : names ≠ []) :
    Stack initial (done ++ [dotDot]) ups names.dropLast := by
  have hlen := List.length_pos_iff.2 hnames
  refine ⟨fun name hname => h.named name (List.mem_of_mem_dropLast hname), h.rooted,
    fun hi => (h.reached hi).concat ?_ ?_ fun start hstart => ?_⟩
  · simp [descent, dotDot_ne]
    omega
  · simp [descent, dotDot_ne]
    omega
  · rw [walkStep, if_neg (by simp [dotDot_ne]), if_pos rfl, if_neg (by simp [hnames]), if_neg (by omega),
      List.dropLast_append_of_ne_nil hnames]

theorem Stack.below (h : Stack 0 done ups []) : Stack 0 (done ++ [dotDot]) (ups + 1) [] := by
  refine ⟨nofun, fun h => absurd rfl h, fun hi => (h.reached hi).concat ?_ ?_ fun start hstart => ?_⟩
  · simp [descent, dotDot_ne]
    omega
  · simp [descent, dotDot_ne]
    omega
  · have hlen : (start.take (start.length - ups)).length = start.length - ups := by simp
    rw [walkStep, if_neg (by simp [dotDot_ne]), if_pos rfl, List.append_nil, List.append_nil]
    by_cases hlt : start.length < ups + 1
    · rw [if_pos hlt, if_pos (List.length_eq_zero_iff.1 (by omega))]
    · rw [if_neg hlt, if_neg (fun e => by rw [e] at hlen; simp at hlen; omega), List.dropLast_eq_take, hlen,
        List.take_take]
      congr 2
      omega

theorem pushComponent_below : pushComponent 0 (List.replicate ups dotDot) dotDot = List.replicate (ups + 1) dotDot := by
  rw [pushComponent, if_neg (by simp [dotDot_ne]), if_pos, List.replicate_succ']
  cases ups with
  | zero => simp
  | succ n => simp [List.getLast?_replicate]

theorem pushComponent_name {comps : List Bytes} (hcomp : IsName comp) :
    pushComponent initial comps comp = comps ++ [comp] := by
  simp [pushComponent, hcomp.1, hcomp.2.1, hcomp.2.2.1]

/-- **One turn of the loop.** -/
theorem Stack.push (h : Stack initial done ups names) (hcomp : slash ∉ comp) : ∃ ups' names',
    pushComponent initial (List.replicate ups dotDot ++ names) comp = List.replicate ups' dotDot ++ names' ∧
      Stack initial (done ++ [comp]) ups' names' := by
  by_cases hskip : comp = [] ∨ comp = [dot]
  · exact ⟨ups, names, if_pos hskip, h.skip hskip⟩
  by_cases hup : comp = dotDot
  · subst hup
    by_cases hnames : names = []
    · subst hnames
      rw [List.append_nil]
      by_cases hinitial : initial = 0
      · subst hinitial
        exact ⟨ups + 1, [], by rw [List.append_nil, pushComponent_below], h.below⟩
      · obtain rfl := h.rooted hinitial
        refine ⟨0, [], ?_, nofun, fun _ => rfl, fun e => absurd e hinitial⟩
        simp [pushComponent, dotDot_ne, hinitial]
    · have hlast : names.getLast? ≠ some dotDot := fun e => (h.named _ (List.mem_of_getLast? e)).2.2.1 rfl
      refine ⟨ups, names.dropLast, ?_, h.up hnames⟩
      rw [pushComponent, if_neg hskip, if_neg, List.dropLast_append_of_ne_nil hnames]
      simp [hnames, List.getLast?_append_of_ne_nil _ hnames, hlast]
  · have hname : IsName comp := ⟨(not_or.1 hskip).1, (not_or.1 hskip).2, hup, hcomp⟩
    exact ⟨ups, names ++ [comp], by rw [pushComponent_name hname, List.append_assoc], h.down hname⟩

theorem Stack.pushAll : ∀ {comps done names : List Bytes} {ups : Nat}, Stack initial done ups names →
    (∀ comp ∈ comps, slash ∉ comp) → ∃ ups' names', comps.foldl (pushComponent initial)
      (List.replicate ups dotDot ++ names) = List.replicate ups' dotDot ++ names' ∧
        Stack initial (done ++ comps) ups' names'
  | [], done, names, ups, h, _ => ⟨ups, names, rfl, by simpa using h⟩
  | comp :: comps, done, names, ups, h, hcomps => by
    obtain ⟨ups₁, names₁, hpush, hstack⟩ := h.push (hcomps comp (List.mem_cons_self ..))
    rw [List.foldl_cons, hpush, List.append_cons]
    exact pushAll hstack (fun comp hcomp => hcomps comp (List.mem_cons_of_mem _ hcomp))

/-- The loop leaves a stack of its own form as it is. -/
theorem Stack.again (h : Stack initial done ups names) :
    (List.replicate ups dotDot ++ names).foldl (pushComponent initial) [] = List.replicate ups dotDot ++ names := by
  have hups : (List.replicate ups dotDot).foldl (pushComponent initial) [] = List.replicate ups dotDot := by
    by_cases hinitial : initial = 0
    · subst hinitial
      clear h
      induction ups with
      | zero => rfl
      | succ n ih => rw [List.replicate_succ', List.foldl_append, ih, ← List.replicate_succ']; exact pushComponent_below
    · rw [h.rooted hinitial]
      rfl
  have hnames : ∀ {names : List Bytes} (acc : List Bytes), (∀ name ∈ names, IsName name) →
      names.foldl (pushComponent initial) acc = acc ++ names := by
    intro names
    induction names with
    | nil => simp
    | cons name names ih =>
      intro acc hnamed
      rw [List.foldl_cons, pushComponent_name (hnamed name (List.mem_cons_self ..)),
        ih _ (fun n hn => hnamed n (List.mem_cons_of_mem _ hn)), List.append_assoc, List.singleton_append]
  rw [List.foldl_append, hups, hnames _ h.named]

/-! ## The path -/

theorem initialSlashes_le (path : Bytes) : initialSlashes path ≤ 2 := by
  unfold initialSlashes
  split_ifs <;> omega

theorem isAbsolute_iff {path : Bytes} : IsAbsolute path ↔ initialSlashes path ≠ 0 := by
  rw [IsAbsolute, ← List.isPrefixOf_iff_prefix]
  unfold initialSlashes
  cases path with
  | nil => decide
  | cons b rest =>
    by_cases hb : slash = b
    · simp [← hb]
      split_ifs <;> simp
    · simp [hb]

theorem Stack.clean (h : Stack initial done ups names) :
    ∀ comp ∈ List.replicate ups dotDot ++ names, comp ≠ [] ∧ slash ∉ comp := by
  intro comp hcomp
  rcases List.mem_append.1 hcomp with hcomp | hcomp
  · rw [List.eq_of_mem_replicate hcomp]
    decide
  · exact ⟨(h.named comp hcomp).1, (h.named comp hcomp).2.2.2⟩

/-- Components that are joined begin with a byte that is no slash, and split into themselves. -/
theorem intercalate_cases {comps : List Bytes} (h : ∀ comp ∈ comps, comp ≠ [] ∧ slash ∉ comp) :
    comps = [] ∨ ∃ b rest, [slash].intercalate comps = b :: rest ∧ b ≠ slash ∧ (b :: rest).splitOn slash = comps := by
  have hsplit := List.splitOn_intercalate slash (fun comp hcomp => (h comp hcomp).2)
  cases comps with
  | nil => exact .inl rfl
  | cons comp comps =>
    obtain ⟨hne, hslash⟩ := h comp (List.mem_cons_self ..)
    obtain ⟨b, tail, rfl⟩ := List.exists_cons_of_ne_nil hne
    have hb : b ≠ slash := fun e => hslash (e ▸ List.mem_cons_self ..)
    replace hsplit := hsplit (List.cons_ne_nil _ _)
    cases comps with
    | nil => exact .inr ⟨b, tail, by simp, hb, by simpa using hsplit⟩
    | cons next comps =>
      rw [List.intercalate_cons_cons] at hsplit ⊢
      exact .inr ⟨b, _, rfl, hb, hsplit⟩

/-- What a normalised path reads as. -/
theorem Stack.joined_reads (h : Stack initial done ups names) (hinitial : initial ≤ 2) :
    normpath (joined initial (List.replicate ups dotDot ++ names)) =
      joined initial (List.replicate ups dotDot ++ names) ∧
    (joined initial (List.replicate ups dotDot ++ names) = [dot] ∧ ups = 0 ∧ names = [] ∨
      components (joined initial (List.replicate ups dotDot ++ names)) = List.replicate ups dotDot ++ names) ∧
    initialSlashes (joined initial (List.replicate ups dotDot ++ names)) = initial := by
  have hagain := h.again
  obtain hcomps | ⟨b, rest, hjoin, hb, hsplit⟩ := intercalate_cases h.clean
  · obtain ⟨hups, rfl⟩ := List.append_eq_nil_iff.1 hcomps
    obtain rfl : ups = 0 := by simpa using hups
    obtain rfl | rfl | rfl : initial = 0 ∨ initial = 1 ∨ initial = 2 := by omega
    · exact ⟨by decide, .inl ⟨by decide, rfl, rfl⟩, by decide⟩
    · exact ⟨by decide, .inr (by decide), by decide⟩
    · exact ⟨by decide, .inr (by decide), by decide⟩
  · generalize List.replicate ups dotDot ++ names = comps at *
    have hout : joined initial comps = List.replicate initial slash ++ b :: rest := by simp [joined, hjoin]
    have hslashes : initialSlashes (joined initial comps) = initial := by
      rw [hout]
      obtain rfl | rfl | rfl : initial = 0 ∨ initial = 1 ∨ initial = 2 := by omega
      all_goals simp [initialSlashes, List.replicate, Ne.symm hb]
    have hparts : ∀ n, (List.replicate n slash ++ b :: rest).splitOn slash = List.replicate n [] ++ comps ∧
        (List.replicate n ([] : Bytes)).foldl (pushComponent initial) [] = [] ∧
        (List.replicate n slash ++ b :: rest).dropWhile (· == slash) = b :: rest := by
      intro n
      induction n with
      | zero => exact ⟨hsplit, rfl, by simp [hb]⟩
      | succ n ih =>
        simp only [List.replicate_succ, List.cons_append, List.splitOn_cons_eq_if_modifyHead, beq_self_eq_true, if_true,
          List.foldl_cons, List.dropWhile_cons, ih]
        exact ⟨trivial, ih.2.1, trivial⟩
    obtain ⟨hfields, hempty, hdrop⟩ := hparts initial
    refine ⟨?_, .inr ?_, hslashes⟩
    · rw [normpath, hslashes, hout, hfields, List.foldl_append, hempty, hagain, hout]
    · rw [components, hout, hdrop]
      exact hsplit

end Loop

/-- **Normalisation tells escape exactly.** -/
theorem normpath_tells_escape (path : Bytes) :
    normpath (normpath path) = normpath path ∧ (IsAbsolute (normpath path) ↔ IsAbsolute path) ∧
    ∃ ups names, (normpath path = [dot] ∧ ups = 0 ∧ names = [] ∨
        components (normpath path) = List.replicate ups dotDot ++ names) ∧
      (∀ name ∈ names, IsName name) ∧ (IsAbsolute path → ups = 0) ∧
      (¬ IsAbsolute path → IsGreatest (depths (path.splitOn slash)) ups ∧
        ∀ start, walk start (path.splitOn slash) =
          if start.length < ups then none else some (start.take (start.length - ups) ++ names)) := by
  have hstart : Stack (initialSlashes path) [] 0 [] := by
    refine ⟨nofun, fun _ => rfl, fun _ => ⟨rfl, ?_, fun start => ?_⟩⟩
    · simp [depths, height]
    · simp [walk]
  obtain ⟨ups, names, hfold, hstack⟩ := hstart.pushAll (fun comp (hcomp : comp ∈ path.splitOn slash) =>
    Lib.notMem_of_mem_splitOn hcomp)
  have hnorm : normpath path = joined (initialSlashes path) (List.replicate ups dotDot ++ names) :=
    congrArg (joined _) hfold
  obtain ⟨hidem, hreads, hroot⟩ := hstack.joined_reads (initialSlashes_le path)
  rw [← hnorm] at hidem hreads hroot
  rw [isAbsolute_iff, isAbsolute_iff, hroot]
  exact ⟨hidem, .rfl, ups, names, hreads, hstack.named, hstack.rooted, fun hrel =>
    ⟨(hstack.reached (not_not.1 hrel)).lowest, (hstack.reached (not_not.1 hrel)).walks⟩⟩

end Archive
end Guard
