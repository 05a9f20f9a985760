import OneRoof.Js
import OneRoof.Lib.Sql

/-!
# What a placeholder becomes

The driver replaces `?` by NULL for `undefined` and `null`, by a quoted literal
for a scalar, by a comma list for an array and by comma separated pairs
`key` = value for an object. Inside an array or an object a nested array is put
in parentheses or spliced in, and a nested object is quoted as its string. The
text that results is parsed again by the server, where `x = y = z` is
`(x = y) = z` and a `SET` list ends at each comma.

`none` is a statement the driver cannot format or the server cannot parse.
-/

namespace OneRoof

open Sql

/-- One piece between commas: a literal, or `key` = literal. -/
inductive Item where
  | lit (l : Lit)
  | pair (key : String) (l : Lit)
  deriving DecidableEq, Repr

namespace JsVal

/-- A value that stands inside an array or an object and is not an array. -/
def quoted : JsVal → Option Lit
  | undefined => some .null
  | null => some .null
  | bool b => some (.str (toString b))
  | num n => some (.num n)
  | dec t => some (.str t)
  | str s => some (.str s)
  | arr _ => none
  | obj fields =>
    if fields.any (fun f => f.1 = "toString") then none else some (.str "[object Object]")

mutual

/-- An element of an array: a nested array stands in parentheses, and only one
value in parentheses is an operand. -/
def element : JsVal → Option Lit
  | arr l => match elements l with
    | some [x] => some x
    | _ => none
  | v => v.quoted

def elements : List JsVal → Option (List Lit)
  | [] => some []
  | v :: vs => do return (← element v) :: (← elements vs)

end

/-- One entry of an object; a nested array leaves all but its first literal
behind the next comma. -/
def entry (f : String × JsVal) : Option (List Item) :=
  match f.2 with
  | arr l => match elements l with
    | some (x :: xs) => some (.pair f.1 x :: xs.map .lit)
    | _ => none
  | v => v.quoted.map (fun x => [.pair f.1 x])

def entries : List (String × JsVal) → Option (List Item)
  | [] => some []
  | f :: fs => do return (← entry f) ++ (← entries fs)

/-- The pieces a value becomes in the place of a `?`. -/
def escape : JsVal → Option (List Item)
  | arr l => match elements l with
    | some (x :: xs) => some (.lit x :: xs.map .lit)
    | _ => none
  | obj fields => match entries fields with
    | some (i :: is) => some (i :: is)
    | _ => none
  | v => v.quoted.map (fun x => [.lit x])

/-- The value of the one placeholder when a bare value is passed for the list of
values: the driver takes an array for that list, and leaves the `?` standing
when the list is missing or empty. -/
def bare : JsVal → Option JsVal
  | undefined => none
  | null => none
  | arr [] => none
  | arr (v :: _) => some v
  | v => some v

end JsVal

/-- The parts of a back-quoted name; the driver closes and opens the quotes at
each dot. -/
def nameParts (key : String) : List String := (key.toList.splitOn '.').map String.ofList

/-- Names of columns are matched without regard to case. -/
def sameName (s t : String) : Bool := s.toList.map Char.toLower = t.toList.map Char.toLower

def columnNamed {κ : Type} [Columns κ] (s : String) : Option κ :=
  Columns.all.find? (fun c => sameName (Columns.name c) s)

/-- A column of the one table of a statement, with or without its table and the
database in front. -/
def column {κ : Type} [Columns κ] (table key : String) : Option κ :=
  match nameParts key with
  | [c] => columnNamed c
  | [t, c] => if t = table then columnNamed c else none
  | [d, t, c] => if d = "oneRoof" ∧ t = table then columnNamed c else none
  | _ => none

/-- `WHERE c = ?`. A second piece behind a comma does not parse. -/
def whereEq {κ : Type} (resolve : String → Option κ) (c : κ) :
    Option (List Item) → Option (Cond κ)
  | some [.lit l] => some (.eq c l)
  | some [.pair key l] => (resolve key).map (fun k => .eqEq c k l)
  | _ => none

/-- The pieces behind the first one in a `SET` list. -/
def laterSets {κ : Type} (resolve : String → Option κ) :
    List Item → Option (List (κ × Rhs κ))
  | [] => some []
  | .lit _ :: _ => none
  | .pair key l :: is => do
    let c ← resolve key
    return (c, .lit l) :: (← laterSets resolve is)

def rhs {κ : Type} (resolve : String → Option κ) : Item → Option (Rhs κ)
  | .lit l => some (.lit l)
  | .pair key l => (resolve key).map (fun k => .cmp k l)

/-- `SET c = ?`. -/
def setTo {κ : Type} (resolve : String → Option κ) (c : κ) :
    Option (List Item) → Option (List (κ × Rhs κ))
  | some (i :: is) => do
    let e ← rhs resolve i
    return (c, e) :: (← laterSets resolve is)
  | _ => none

/-- `VALUES (?, …)`: as many pieces as columns, so one piece for each value. -/
def valuesOf {κ : Type} (resolve : String → Option κ) :
    List (κ × JsVal) → Option (List (κ × Rhs κ))
  | [] => some []
  | (c, v) :: vs => match v.escape with
    | some [i] => do
      let e ← rhs resolve i
      return (c, e) :: (← valuesOf resolve vs)
    | _ => none

section Shapes

variable {κ : Type} {resolve : String → Option κ}

theorem laterSets_literals {is : List Item} {sets : List (κ × Rhs κ)}
    (parsed : laterSets resolve is = some sets) : ∀ s ∈ sets, ∃ l, s.2 = .lit l := by
  induction is generalizing sets with
  | nil =>
    cases parsed
    simp
  | cons i is ih =>
    cases i with
    | lit l => cases parsed
    | pair key l =>
      obtain ⟨c, -, parsed⟩ := Option.bind_eq_some_iff.mp parsed
      obtain ⟨later, hl, parsed⟩ := Option.bind_eq_some_iff.mp parsed
      cases parsed
      intro s hs
      rcases List.mem_cons.mp hs with rfl | hs
      · exact ⟨l, rfl⟩
      · exact ih hl s hs

theorem setTo_str (c : κ) (s : String) :
    setTo resolve c (JsVal.str s).escape = some [(c, .lit (.str s))] := rfl

/-- A `SET` list starts with the column it is written for. -/
theorem setTo_cases {c : κ} {items : Option (List Item)} {sets : List (κ × Rhs κ)}
    (parsed : setTo resolve c items = some sets) :
    ∃ e later, sets = (c, e) :: later ∧ ∀ s ∈ later, ∃ l, s.2 = .lit l := by
  unfold setTo at parsed
  split at parsed
  · obtain ⟨e, -, parsed⟩ := Option.bind_eq_some_iff.mp parsed
    obtain ⟨later, hl, parsed⟩ := Option.bind_eq_some_iff.mp parsed
    cases parsed
    exact ⟨e, later, rfl, laterSets_literals hl⟩
  · cases parsed

theorem JsVal.entry_cons {f : String × JsVal} {is : List Item} (h : JsVal.entry f = some is) :
    ∃ l rest, is = .pair f.1 l :: rest := by
  unfold JsVal.entry at h
  split at h
  · split at h
    · cases h
      exact ⟨_, _, rfl⟩
    · cases h
  · obtain ⟨l, -, rfl⟩ := Option.map_eq_some_iff.mp h
    exact ⟨l, [], rfl⟩

/-- One pair comes from an object with one entry. -/
theorem JsVal.escape_pair {v : JsVal} {name : String} {l : Lit}
    (h : v.escape = some [.pair name l]) : ∃ w, v = .obj [(name, w)] := by
  cases v with
  | obj fields =>
    have entries : JsVal.entries fields = some [.pair name l] := by
      simp only [JsVal.escape] at h
      split at h
      · rename_i he
        rw [he, h]
      · cases h
    cases fields with
    | nil => cases entries
    | cons f fs =>
      obtain ⟨is, hi, entries⟩ := Option.bind_eq_some_iff.mp entries
      obtain ⟨js, hj, entries⟩ := Option.bind_eq_some_iff.mp entries
      obtain ⟨l', rest, rfl⟩ := JsVal.entry_cons hi
      obtain ⟨hname, hrest⟩ := List.cons.inj (Option.some.inj entries)
      obtain ⟨-, rfl⟩ := List.append_eq_nil_iff.mp hrest
      cases fs with
      | nil =>
        cases hname
        exact ⟨f.2, rfl⟩
      | cons g gs =>
        obtain ⟨is', hi', hj⟩ := Option.bind_eq_some_iff.mp hj
        obtain ⟨js', -, hj⟩ := Option.bind_eq_some_iff.mp hj
        obtain ⟨_, _, rfl⟩ := JsVal.entry_cons hi'
        cases hj
  | arr items =>
    simp only [JsVal.escape] at h
    split at h <;> cases h
  | undefined => cases h
  | null => cases h
  | bool b => cases h
  | num n => cases h
  | dec t => cases h
  | str s => cases h

end Shapes

section Scalars

/-- What a scalar becomes in the place of a `?`. -/
def JsVal.lit (v : JsVal) : Lit := v.quoted.getD .null

theorem JsVal.escape_scalar {v : JsVal} (scalar : v.isScalar = true) :
    v.escape = some [.lit v.lit] := by
  cases v <;> first | rfl | cases scalar

theorem JsVal.ofInt_scalar (n : Option Int) : (JsVal.ofInt n).isScalar = true := by
  cases n <;> rfl

theorem JsVal.lit_of_truthy {v : JsVal} (scalar : v.isScalar = true) (truthy : v.truthy = true) :
    v.lit ≠ .null := by
  cases v <;> simp_all [JsVal.isScalar, JsVal.truthy, JsVal.lit, JsVal.quoted]

theorem JsVal.bare_scalar {v : JsVal} (scalar : v.isScalar = true) :
    v.bare = none ∧ v.lit = .null ∨ v.bare = some v ∧ v.lit ≠ .null := by
  cases v <;> simp_all [JsVal.isScalar, JsVal.bare, JsVal.lit, JsVal.quoted]

theorem setTo_scalar {κ : Type} {resolve : String → Option κ} (c : κ) {v : JsVal}
    (scalar : v.isScalar = true) : setTo resolve c v.escape = some [(c, .lit v.lit)] := by
  rw [JsVal.escape_scalar scalar]
  rfl

theorem valuesOf_scalars {κ : Type} {resolve : String → Option κ} {values : List (κ × JsVal)}
    (scalars : ∀ p ∈ values, p.2.isScalar = true) :
    valuesOf resolve values = some (values.map fun p => (p.1, .lit p.2.lit)) := by
  induction values with
  | nil => rfl
  | cons p values ih =>
    have rest := ih fun p' h => scalars p' (List.mem_cons_of_mem p h)
    have first := JsVal.escape_scalar (scalars p List.mem_cons_self)
    simp [valuesOf, first, rest, rhs]

theorem valuesOf_names {κ : Type} {resolve : String → Option κ} {values : List (κ × JsVal)}
    {sets : List (κ × Rhs κ)} (parsed : valuesOf resolve values = some sets) :
    sets.map Prod.fst = values.map Prod.fst := by
  induction values generalizing sets with
  | nil =>
    cases parsed
    rfl
  | cons p values ih =>
    simp only [valuesOf] at parsed
    split at parsed
    · obtain ⟨e, -, parsed⟩ := Option.bind_eq_some_iff.mp parsed
      obtain ⟨later, hl, parsed⟩ := Option.bind_eq_some_iff.mp parsed
      cases parsed
      simp [ih hl]
    · cases parsed

theorem valuesOf_unlisted {κ : Type} {resolve : String → Option κ} {values : List (κ × JsVal)}
    {sets : List (κ × Rhs κ)} (parsed : valuesOf resolve values = some sets) {c : κ}
    (unlisted : c ∉ values.map Prod.fst) : ∀ s ∈ sets, s.1 ≠ c := by
  rw [← valuesOf_names parsed] at unlisted
  exact fun s hs h => unlisted (h ▸ List.mem_map_of_mem hs)

/-- A scalar is written as it is, whatever stands beside it. -/
theorem valuesOf_mem {κ : Type} {resolve : String → Option κ} {values : List (κ × JsVal)}
    {sets : List (κ × Rhs κ)} (parsed : valuesOf resolve values = some sets) {c : κ} {v : JsVal}
    (mem : (c, v) ∈ values) (scalar : v.isScalar = true) : (c, .lit v.lit) ∈ sets := by
  induction values generalizing sets with
  | nil => cases mem
  | cons p values ih =>
    simp only [valuesOf] at parsed
    split at parsed
    · rename_i i escaped
      obtain ⟨e, he, parsed⟩ := Option.bind_eq_some_iff.mp parsed
      obtain ⟨later, hl, parsed⟩ := Option.bind_eq_some_iff.mp parsed
      cases parsed
      rcases List.mem_cons.mp mem with rfl | mem
      · rw [JsVal.escape_scalar scalar] at escaped
        cases escaped
        cases he
        exact List.mem_cons_self
      · exact List.mem_cons_of_mem _ (ih hl mem)
    · cases parsed

end Scalars

end OneRoof
