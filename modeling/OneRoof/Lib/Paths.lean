import Mathlib.Data.List.Infix

/-!
# File systems and relative paths

A location is the list of names from the innermost one out. A path is walked
segment by segment; the place each step starts from has to be a directory.
Which locations a walk passes, and where it ends, depends on the path alone.
-/

namespace Paths

inductive Node where
  | dir
  | file (content : String)

/-- What stands at each location; the parent of anything is a directory. -/
structure FileSystem where
  node : List String → Option Node
  root : node [] = some .dir
  parent : ∀ name place, node (name :: place) ≠ none → node place = some .dir

/-- One segment: the empty one and `.` stay, `..` goes to the parent. -/
def move (place : List String) (segment : String) : List String :=
  if segment = "" ∨ segment = "." then place
  else if segment = ".." then place.tail
  else segment :: place

def resolve (place : List String) (segments : List String) : List String :=
  segments.foldl move place

/-- The locations a walk starts a step from. -/
def visited : List String → List String → List (List String)
  | _, [] => []
  | place, s :: rest => place :: visited (move place s) rest

def walk (fs : FileSystem) : List String → List String → Option (List String)
  | place, [] => some place
  | place, s :: rest => match fs.node place with
    | some .dir => walk fs (move place s) rest
    | _ => none

/-- The file a path names, with its location. -/
def read (fs : FileSystem) (place segments : List String) : Option (List String × String) :=
  match walk fs place segments with
  | some loc => match fs.node loc with
    | some (.file content) => some (loc, content)
    | _ => none
  | none => none

/-- A segment that does not name an entry of the directory it stands in. -/
def Dots (segment : String) : Prop := segment = "" ∨ segment = "." ∨ segment = ".."

instance (segment : String) : Decidable (Dots segment) :=
  inferInstanceAs (Decidable (_ ∨ _ ∨ _))

theorem move_name {segment : String} (name : ¬ Dots segment) (place : List String) :
    move place segment = segment :: place := by
  unfold Dots at name
  rw [move, if_neg (fun h => name (by tauto)), if_neg (fun h => name (by tauto))]

@[simp] theorem resolve_append (place l r : List String) :
    resolve place (l ++ r) = resolve (resolve place l) r :=
  List.foldl_append

theorem visited_append (place l r : List String) :
    visited place (l ++ r) = visited place l ++ visited (resolve place l) r := by
  induction l generalizing place with
  | nil => rfl
  | cons s l ih => simp only [List.cons_append, visited, ih]; rfl

/-- A walk succeeds exactly when every location it leaves is a directory. -/
theorem walk_eq_some_iff (fs : FileSystem) (place segments loc : List String) :
    walk fs place segments = some loc ↔
      (∀ v ∈ visited place segments, fs.node v = some .dir) ∧ loc = resolve place segments := by
  induction segments generalizing place with
  | nil => simp [walk, visited, resolve, eq_comm]
  | cons s rest ih =>
    have hr : resolve place (s :: rest) = resolve (move place s) rest := rfl
    cases hn : fs.node place with
    | none => simp [walk, visited, hn]
    | some n =>
      cases n with
      | dir => simp only [walk, hn, ih, visited, List.forall_mem_cons, hr, true_and]
      | file content => simp [walk, visited, hn]

theorem parent_dir (fs : FileSystem) (place : List String) (present : fs.node place ≠ none) :
    fs.node place.tail = some .dir := by
  cases place with
  | nil => exact fs.root
  | cons name place => exact fs.parent name place present

/-- A path whose last segment stays or goes up ends at a directory. -/
theorem read_dots (fs : FileSystem) (place init : List String) {last : String}
    (dots : Dots last) : read fs place (init ++ [last]) = none := by
  unfold read
  cases hw : walk fs place (init ++ [last]) with
  | none => rfl
  | some loc =>
    obtain ⟨dirs, hloc⟩ := (walk_eq_some_iff fs _ _ _).mp hw
    have here : fs.node (resolve place init) = some .dir := by
      apply dirs
      rw [visited_append]
      simp [visited]
    have ends : fs.node loc = some .dir := by
      have hm : loc = move (resolve place init) last := by
        rw [hloc, resolve_append]
        rfl
      rw [hm]
      rcases dots with rfl | rfl | rfl
      · simpa [move] using here
      · simpa [move] using here
      · have hup := parent_dir fs (resolve place init) (by simp [here])
        simpa [move] using hup
    simp [ends]

/-- The file system in which `target` is a file and all else that can be is a
directory. -/
def only (target : List String) (some_name : target ≠ []) : FileSystem where
  node place := if place = target then some (.file "") else
    if target <:+ place then none else some .dir
  root := by
    have hs : ¬ target <:+ [] := fun h => some_name (List.eq_nil_of_suffix_nil h)
    simp [some_name.symm, hs]
  parent := by
    intro name place present
    by_cases at_target : place = target
    · subst place
      have below : target <:+ name :: target := List.suffix_cons _ _
      have ne : name :: target ≠ target := by
        intro h
        have := congrArg List.length h
        simp at this
      simp [ne, below] at present
    · have above : ¬ target <:+ place := by
        intro h
        have below : target <:+ name :: place := h.trans (List.suffix_cons _ _)
        have ne : name :: place ≠ target := by
          intro heq
          have h1 := h.length_le
          have h2 := congrArg List.length heq
          simp at h2
          omega
        simp [ne, below] at present
      simp [at_target, above]

/-- Every path that does not pass its own target is read in some file system. -/
theorem read_only (place segments : List String) (some_name : resolve place segments ≠ [])
    (clear : ∀ v ∈ visited place segments, ¬ resolve place segments <:+ v) :
    read (only (resolve place segments) some_name) place segments =
      some (resolve place segments, "") := by
  have hw : walk (only (resolve place segments) some_name) place segments =
      some (resolve place segments) := by
    rw [walk_eq_some_iff]
    refine ⟨?_, rfl⟩
    intro v hv
    have hne : v ≠ resolve place segments := fun h => clear v hv (h ▸ List.suffix_refl _)
    simp [only, hne, clear v hv]
  simp only [read, hw]
  simp [only]

theorem suffix_is_dir (fs : FileSystem) {target place : List String}
    (below : target <:+ place) (present : fs.node place = some .dir) :
    fs.node target = some .dir := by
  induction place with
  | nil =>
    rw [List.eq_nil_of_suffix_nil below]
    exact present
  | cons name place ih =>
    rcases List.suffix_cons_iff.mp below with rfl | below
    · exact present
    · exact ih below (fs.parent name place (by simp [present]))

/-- A path that passes its own target, or a place below it, reads no file. -/
theorem read_blocked (fs : FileSystem) (place segments : List String)
    (blocked : ∃ v ∈ visited place segments, resolve place segments <:+ v) :
    read fs place segments = none := by
  unfold read
  cases hw : walk fs place segments with
  | none => rfl
  | some loc =>
    obtain ⟨dirs, rfl⟩ := (walk_eq_some_iff fs _ _ _).mp hw
    obtain ⟨v, hv, below⟩ := blocked
    simp [suffix_is_dir fs below (dirs v hv)]

theorem read_location {fs : FileSystem} {place segments loc : List String} {content : String}
    (h : read fs place segments = some (loc, content)) : loc = resolve place segments := by
  unfold read at h
  cases hw : walk fs place segments with
  | none => simp [hw] at h
  | some l =>
    have hl := ((walk_eq_some_iff fs _ _ _).mp hw).2
    simp only [hw] at h
    cases hn : fs.node l with
    | none => simp [hn] at h
    | some n =>
      cases n with
      | dir => simp [hn] at h
      | file c =>
        simp only [hn, Option.some.injEq, Prod.mk.injEq] at h
        exact h.1 ▸ hl

end Paths
