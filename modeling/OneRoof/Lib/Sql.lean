import Mathlib.Data.List.Pairwise
import Mathlib.Logic.Function.Basic
import OneRoof.Lib.Decimal

/-!
# Rows, comparisons and single-table statements

Values of a table, literals of a statement, the three-valued `=` between them,
and what `SELECT`, `UPDATE`, `DELETE` and `INSERT` do to a list of rows. The
server is one that adjusts what it stores instead of refusing it: a long text
is cut, a text is read as a number up to its first foreign character, and an
`UPDATE` turns NULL into the zero of a column that is NOT NULL.

Texts are compared by the sort key of their collation, a parameter.
-/

namespace Sql

inductive Value where
  | null
  | int (n : Int)
  | text (s : String)
  deriving DecidableEq, Repr

/-- Literals stand quoted in a statement, whole numbers included. -/
inductive Lit where
  | null
  | num (n : Int)
  | str (s : String)
  deriving DecidableEq, Repr

inductive SqlType where
  | int
  | varchar (n : Nat)
  | timestamp
  deriving DecidableEq, Repr

/-- The columns of a table, in their order. -/
class Columns (κ : Type) where
  all : List κ
  name : κ → String
  type : κ → SqlType
  nullable : κ → Bool
  mem_all : ∀ c, c ∈ all

abbrev Row (κ : Type) := κ → Value

instance {κ : Type} [Columns κ] : DecidableEq (Row κ) := fun r r' =>
  decidable_of_iff (∀ c ∈ Columns.all (κ := κ), r c = r' c)
    ⟨fun h => funext fun c => h c (Columns.mem_all c), fun h _ _ => congrFun h _⟩

/-- The number a text is read as. -/
def number (s : String) : ℚ :=
  match Decimal.scan (s.toList.dropWhile Char.isWhitespace) with
  | some (q, _) => q
  | none => 0

section Comparison

variable (collate : String → String)

def eqValue : Value → Value → Option Bool
  | .null, _ => none
  | _, .null => none
  | .int a, .int b => some (a = b)
  | .int a, .text b => some ((a : ℚ) = number b)
  | .text a, .int b => some (number a = (b : ℚ))
  | .text a, .text b => some (collate a = collate b)

/-- A column against a literal. A quoted number is a text for a text column. -/
def eqLit : Value → Lit → Option Bool
  | .null, _ => none
  | _, .null => none
  | .int a, .num b => some (a = b)
  | .int a, .str b => some ((a : ℚ) = number b)
  | .text a, .num b => some (collate a = collate (toString b))
  | .text a, .str b => some (collate a = collate b)

/-- The outcome of a comparison compared in its turn: `(x = y) = z`. -/
def eqTruth : Option Bool → Lit → Option Bool
  | none, _ => none
  | some b, l => eqLit collate (.int b.toInt) l

/-- A condition on one row: `c = l`, or `c = k = l` as it is parsed. -/
inductive Cond (κ : Type) where
  | eq (c : κ) (l : Lit)
  | eqEq (c k : κ) (l : Lit)

def Cond.eval {κ : Type} : Cond κ → Row κ → Option Bool
  | .eq c l, r => eqLit collate (r c) l
  | .eqEq c k l, r => eqTruth collate (eqValue collate (r c) (r k)) l

def Cond.hits {κ : Type} (q : Cond κ) (r : Row κ) : Bool :=
  q.eval collate r = some true

theorem Cond.hits_iff {κ : Type} {q : Cond κ} {r : Row κ} :
    q.hits collate r = true ↔ q.eval collate r = some true :=
  decide_eq_true_iff

/-- The columns a condition reads. -/
def Cond.columns {κ : Type} : Cond κ → List κ
  | .eq c _ => [c]
  | .eqEq c k _ => [c, k]

theorem Cond.hits_congr {κ : Type} {q : Cond κ} {r r' : Row κ}
    (same : ∀ c ∈ q.columns, r c = r' c) : q.hits collate r = q.hits collate r' := by
  have outcome : q.eval collate r = q.eval collate r' := by
    cases q with
    | eq c l => rw [Cond.eval, Cond.eval, same c List.mem_cons_self]
    | eqEq c k l =>
      rw [Cond.eval, Cond.eval, same c List.mem_cons_self,
        same k (List.mem_cons_of_mem c List.mem_cons_self)]
  simp only [Cond.hits, outcome]

/-- What is stored in a column: a literal, or the outcome of `k = l`. -/
inductive Rhs (κ : Type) where
  | lit (l : Lit)
  | cmp (k : κ) (l : Lit)

def Lit.value : Lit → Value
  | .null => .null
  | .num n => .int n
  | .str s => .text s

def truthValue : Option Bool → Value
  | none => .null
  | some b => .int b.toInt

def Rhs.value {κ : Type} : Rhs κ → Row κ → Value
  | .lit l, _ => l.value
  | .cmp k l, r => truthValue (eqLit collate (r k) l)

end Comparison

section Storage

variable {κ : Type} [Columns κ]

def zero : SqlType → Value
  | .int => .int 0
  | .varchar _ => .text ""
  | .timestamp => .int 0

def clip (n : Int) : Int := max (-2147483648) (min n 2147483647)

theorem clip_of_range {n : Int} (h : -2147483648 ≤ n ∧ n ≤ 2147483647) : clip n = n := by
  unfold clip
  omega

def roundAway (q : ℚ) : Int := if 0 ≤ q then ⌊q + 1 / 2⌋ else -⌊-q + 1 / 2⌋

def cut (m : Nat) (s : String) : String := String.ofList (s.toList.take m)

theorem cut_of_le {m : Nat} {s : String} (fits : s.length ≤ m) : cut m s = s := by
  rw [cut, List.take_of_length_le (by rwa [String.length_toList]), String.ofList_toList]

theorem cut_eq {m : Nat} {s t : String} (short : t.length < m) : cut m s = t ↔ s = t := by
  constructor
  · rintro rfl
    have length : (cut m s).length = min m s.toList.length := by simp [cut, String.length_ofList]
    exact (cut_of_le (by rw [← String.length_toList]; omega)).symm
  · rintro rfl
    exact cut_of_le (by omega)

/-- What a column holds after a value is written to it. -/
def store (c : κ) (v : Value) : Value :=
  match Columns.type c, v with
  | t, .null => if Columns.nullable c then .null else zero t
  | .int, .int n => .int (clip n)
  | .int, .text s => .int (clip (roundAway (number s)))
  | .varchar m, .int n => .text (cut m (toString n))
  | .varchar m, .text s => .text (cut m s)
  | .timestamp, .int n => .int n
  | .timestamp, .text _ => .int 0

/-- Values a column can hold. Timestamps are written as fourteen digits. -/
def fits (c : κ) : Value → Bool
  | .null => Columns.nullable c
  | .int n => match Columns.type c with
    | .int => -2147483648 ≤ n ∧ n ≤ 2147483647
    | .timestamp => 19700101000001 ≤ n ∧ n ≤ 20380119031407
    | .varchar _ => false
  | .text s => match Columns.type c with
    | .varchar m => s.length ≤ m
    | _ => false

def blank : Row κ := fun c => if Columns.nullable c then .null else zero (Columns.type c)

end Storage

section Statements

variable {κ : Type} [DecidableEq κ] [Columns κ] (collate : String → String)

/-- A `SET` list, evaluated from left to right on the row as it changes. -/
def assign (sets : List (κ × Rhs κ)) (r : Row κ) : Row κ :=
  sets.foldl (fun r s => Function.update r s.1 (store s.1 (s.2.value collate r))) r

def select (q : Cond κ) (rows : List (Row κ)) : List (Row κ) :=
  rows.filter (q.hits collate)

def update (q : Cond κ) (sets : List (κ × Rhs κ)) (rows : List (Row κ)) : List (Row κ) :=
  rows.map (fun r => if q.hits collate r then assign collate sets r else r)

def delete (q : Cond κ) (rows : List (Row κ)) : List (Row κ) :=
  rows.filter (fun r => !q.hits collate r)

/-- A row with the listed values. NULL is refused where the column forbids it. -/
def fill : List (κ × Rhs κ) → Row κ → Option (Row κ)
  | [], r => some r
  | (c, e) :: sets, r =>
    if e.value collate r = .null ∧ Columns.nullable c = false then none
    else fill sets (Function.update r c (store c (e.value collate r)))

/-- No two rows have equal keys. -/
def Keyed (key : κ) (rows : List (Row κ)) : Prop :=
  rows.Pairwise (fun r r' => eqValue collate (r key) (r' key) ≠ some true)

def Typed (rows : List (Row κ)) : Prop :=
  ∀ r ∈ rows, ∀ c ∈ Columns.all, fits c (r c) = true

/-- Every reference is NULL or names a row of the parent table. -/
def Refers {π : Type} (col : κ) (key : π) (rows : List (Row κ)) (parents : List (Row π)) :
    Prop :=
  ∀ r ∈ rows, r col = .null ∨ ∃ p ∈ parents, eqValue collate (r col) (p key) = some true

instance (key : κ) (rows : List (Row κ)) : Decidable (Keyed collate key rows) :=
  inferInstanceAs (Decidable (List.Pairwise _ _))

instance (rows : List (Row κ)) : Decidable (Typed rows) :=
  inferInstanceAs (Decidable (∀ r ∈ rows, ∀ c ∈ Columns.all, _))

instance {π : Type} (col : κ) (key : π) (rows : List (Row κ)) (parents : List (Row π)) :
    Decidable (Refers collate col key rows parents) :=
  inferInstanceAs (Decidable (∀ r ∈ rows, _ ∨ ∃ p ∈ parents, _))

omit [DecidableEq κ] in
@[simp] theorem typed_nil : Typed ([] : List (Row κ)) := by simp [Typed]

omit [DecidableEq κ] in
theorem typed_singleton {r : Row κ} (h : ∀ c, fits c (r c) = true) : Typed [r] :=
  fun _ hr c _ => List.mem_singleton.mp hr ▸ h c

omit [DecidableEq κ] [Columns κ] in
@[simp] theorem keyed_nil (key : κ) : Keyed collate key [] := .nil

omit [DecidableEq κ] [Columns κ] in
@[simp] theorem keyed_singleton (key : κ) (r : Row κ) : Keyed collate key [r] :=
  List.pairwise_singleton _ _

omit [DecidableEq κ] [Columns κ] in
@[simp] theorem refers_nil {π : Type} (col : κ) (key : π) (parents : List (Row π)) :
    Refers collate col key [] parents := by
  simp [Refers]

end Statements

section Frames

variable {κ : Type} [DecidableEq κ] [Columns κ] {collate : String → String}

theorem map_eq_self_iff {α : Type} {f : α → α} {l : List α} :
    l.map f = l ↔ ∀ a ∈ l, f a = a := by
  induction l with
  | nil => simp
  | cons a l ih => simp [ih]

theorem update_eq_self_iff {q : Cond κ} {sets : List (κ × Rhs κ)} {rows : List (Row κ)} :
    update collate q sets rows = rows ↔
      ∀ r ∈ rows, q.hits collate r = true → assign collate sets r = r := by
  rw [update, map_eq_self_iff]
  refine forall₂_congr fun r _ => ?_
  by_cases hit : q.hits collate r = true <;> simp [hit]

omit [DecidableEq κ] [Columns κ] in
theorem delete_eq_self_iff {q : Cond κ} {rows : List (Row κ)} :
    delete collate q rows = rows ↔ ∀ r ∈ rows, q.hits collate r = false := by
  simp [delete, List.filter_eq_self]

/-- Conditions that hit at most one row of a table. -/
def HitsOnce (collate : String → String) (q : Cond κ) (rows : List (Row κ)) : Prop :=
  rows.Pairwise (fun r r' => ¬ (q.hits collate r = true ∧ q.hits collate r' = true))

/-- The table but for one row, which the predicate holds of. -/
def ChangesOne (given : Row κ → Prop) (old new : List (Row κ)) : Prop :=
  new = old ∨ ∃ i r r', old[i]? = some r ∧ given r ∧ new = old.set i r'

def RemovesOne (given : Row κ → Prop) (old new : List (Row κ)) : Prop :=
  new = old ∨ ∃ i r, old[i]? = some r ∧ given r ∧ new = old.eraseIdx i

theorem update_once {q : Cond κ} {sets : List (κ × Rhs κ)} {rows : List (Row κ)}
    (once : HitsOnce collate q rows) :
    ChangesOne (fun r => q.hits collate r = true) rows (update collate q sets rows) := by
  induction rows with
  | nil => exact Or.inl rfl
  | cons r rows ih =>
    obtain ⟨apart, once⟩ := List.pairwise_cons.mp once
    by_cases hit : q.hits collate r = true
    · have rest : update collate q sets rows = rows :=
        update_eq_self_iff.mpr fun r' hr' hit' => absurd ⟨hit, hit'⟩ (apart r' hr')
      refine Or.inr ⟨0, r, assign collate sets r, rfl, hit, ?_⟩
      simpa [update, hit] using rest
    · rcases ih once with same | ⟨i, x, x', hx, hitx, hset⟩
      · exact Or.inl (by simpa [update, hit] using same)
      · exact Or.inr ⟨i + 1, x, x', hx, hitx, by simpa [update, hit] using hset⟩

omit [DecidableEq κ] [Columns κ] in
theorem delete_once {q : Cond κ} {rows : List (Row κ)} (once : HitsOnce collate q rows) :
    RemovesOne (fun r => q.hits collate r = true) rows (delete collate q rows) := by
  induction rows with
  | nil => exact Or.inl rfl
  | cons r rows ih =>
    obtain ⟨apart, once⟩ := List.pairwise_cons.mp once
    by_cases hit : q.hits collate r = true
    · have rest : delete collate q rows = rows :=
        delete_eq_self_iff.mpr fun r' hr' => by
          by_contra hit'
          exact apart r' hr' ⟨hit, by simpa using hit'⟩
      refine Or.inr ⟨0, r, rfl, hit, ?_⟩
      simpa [delete, hit] using rest
    · rcases ih once with same | ⟨i, x, hx, hitx, herase⟩
      · exact Or.inl (by simpa [delete, hit] using same)
      · exact Or.inr ⟨i + 1, x, hx, hitx, by simpa [delete, hit] using herase⟩

theorem assign_cons (s : κ × Rhs κ) (sets : List (κ × Rhs κ)) (r : Row κ) :
    assign collate (s :: sets) r =
      assign collate sets (Function.update r s.1 (store s.1 (s.2.value collate r))) := rfl

/-- A `SET` list leaves the columns it does not name. -/
theorem assign_frame {sets : List (κ × Rhs κ)} {c : κ} (other : ∀ s ∈ sets, s.1 ≠ c)
    (r : Row κ) : assign collate sets r c = r c := by
  induction sets generalizing r with
  | nil => rfl
  | cons s sets ih =>
    have hs : c ≠ s.1 := Ne.symm (other s List.mem_cons_self)
    rw [assign_cons, ih (fun s' h => other s' (List.mem_cons_of_mem s h)), Function.update_of_ne hs]

/-- A column that is named once holds the literal written to it. -/
theorem assign_cell {sets : List (κ × Rhs κ)} {c : κ} {l : Lit}
    (once : (sets.map Prod.fst).Nodup) (mem : (c, .lit l) ∈ sets) (r : Row κ) :
    assign collate sets r c = store c l.value := by
  induction sets generalizing r with
  | nil => cases mem
  | cons s sets ih =>
    obtain ⟨fresh, once⟩ := List.nodup_cons.mp once
    rw [assign_cons]
    rcases List.mem_cons.mp mem with rfl | mem
    · have other : ∀ s ∈ sets, s.1 ≠ c := by
        intro s hs h
        exact fresh (List.mem_map.mpr ⟨s, hs, h⟩)
      rw [assign_frame other, Function.update_self]
      rfl
    · exact ih once mem _

/-- A row that is accepted is the one the same `SET` list would leave. -/
theorem fill_eq_assign {sets : List (κ × Rhs κ)} {r r' : Row κ}
    (filled : fill collate sets r = some r') : r' = assign collate sets r := by
  induction sets generalizing r with
  | nil =>
    cases filled
    rfl
  | cons s sets ih =>
    simp only [fill] at filled
    split at filled
    · cases filled
    · rw [assign_cons]
      exact ih filled

/-- A row that is accepted got no NULL where the column forbids it. -/
theorem fill_given {sets : List (κ × Rhs κ)} {r r' : Row κ}
    (filled : fill collate sets r = some r') {c : κ} {l : Lit} (mem : (c, .lit l) ∈ sets)
    (given : Columns.nullable c = false) : l ≠ .null := by
  induction sets generalizing r with
  | nil => cases mem
  | cons s sets ih =>
    simp only [fill] at filled
    split at filled
    · cases filled
    · rename_i accepted
      rcases List.mem_cons.mp mem with rfl | mem
      · rintro rfl
        exact accepted ⟨rfl, given⟩
      · exact ih filled mem

/-- A column that literals are written to ends up with the last of them. -/
theorem assign_literals (collate : String → String) {sets : List (κ × Rhs κ)} {c : κ}
    (literals : ∀ s ∈ sets, ∃ l, s.2 = .lit l) (named : ∃ s ∈ sets, s.1 = c) :
    ∃ l : Lit, ∀ r, assign collate sets r c = store c l.value := by
  induction sets with
  | nil => exact absurd named (by simp)
  | cons s sets ih =>
    have literals' := fun s' h => literals s' (List.mem_cons_of_mem s h)
    by_cases later : ∃ s' ∈ sets, s'.1 = c
    · obtain ⟨l, hl⟩ := ih literals' later
      exact ⟨l, fun r => hl _⟩
    · push Not at later
      obtain ⟨s', hs', hc⟩ := named
      rcases List.mem_cons.mp hs' with rfl | old
      · obtain ⟨l, hl⟩ := literals s' List.mem_cons_self
        refine ⟨l, fun r => ?_⟩
        rw [assign_cons, assign_frame later, ← hc, Function.update_self, hl]
        rfl
      · exact absurd hc (later s' old)

end Frames

section Cells

variable {collate : String → String}

theorem eqValue_symm (v w : Value) : eqValue collate v w = eqValue collate w v := by
  cases v <;> cases w <;> simp [eqValue, eq_comm]

theorem eqLit_null (v : Value) : eqLit collate v .null = none := by
  cases v <;> rfl

theorem eqValue_self (v : Value) : eqValue collate v v ≠ some false := by
  cases v <;> simp [eqValue]

theorem eqTruth_eq_true {o : Option Bool} {l : Lit} (h : eqTruth collate o l = some true) :
    o = some true ∧ eqLit collate (.int 1) l = some true ∨
      o = some false ∧ eqLit collate (.int 0) l = some true := by
  match o with
  | none => cases h
  | some true => exact Or.inl ⟨rfl, h⟩
  | some false => exact Or.inr ⟨rfl, h⟩

/-- Texts that equal the same literal equal each other. -/
theorem text_eqLit_trans {s t : String} {l : Lit} (hs : eqLit collate (.text s) l = some true)
    (ht : eqLit collate (.text t) l = some true) :
    eqValue collate (.text s) (.text t) = some true := by
  cases l <;> simp_all [eqLit, eqValue]

theorem text_eqLit_congr {s t : String} {l : Lit}
    (same : eqValue collate (.text s) (.text t) = some true)
    (ht : eqLit collate (.text t) l = some true) : eqLit collate (.text s) l = some true := by
  cases l <;> simp_all [eqLit, eqValue]

theorem int_eqLit_trans {m n : Int} {l : Lit} (hm : eqLit collate (.int m) l = some true)
    (hn : eqLit collate (.int n) l = some true) :
    eqValue collate (.int m) (.int n) = some true := by
  cases l with
  | null => cases hm
  | num k => simp_all [eqLit, eqValue]
  | str s =>
    simp only [eqLit, Option.some.injEq, decide_eq_true_eq] at hm hn
    have : m = n := by exact_mod_cast hm.trans hn.symm
    simp [eqValue, this]

/-- A text that is not NULL equals the literal it is sent back as. -/
theorem eqLit_text (s : String) : eqLit collate (.text s) (.str s) = some true := by
  simp [eqLit]

theorem int_cell {κ : Type} [Columns κ] {c : κ} (hc : Columns.type c = .int)
    (given : Columns.nullable c = false) {rows : List (Row κ)} (typed : Typed rows) {r : Row κ}
    (hr : r ∈ rows) : ∃ n, r c = .int n := by
  have h := typed r hr c (Columns.mem_all c)
  cases hv : r c with
  | null => simp [fits, hv, given] at h
  | int n => exact ⟨n, rfl⟩
  | text s => simp [fits, hv, hc] at h

theorem clip_cell {κ : Type} [Columns κ] {c : κ} (hc : Columns.type c = .int)
    {rows : List (Row κ)} (typed : Typed rows) {r : Row κ} (hr : r ∈ rows) {n : Int}
    (hn : r c = .int n) : clip n = n := by
  have h := typed r hr c (Columns.mem_all c)
  rw [hn] at h
  exact clip_of_range (by simpa [fits, hc] using h)

theorem text_cell {κ : Type} [Columns κ] {c : κ} {m : Nat} (hc : Columns.type c = .varchar m)
    (given : Columns.nullable c = false) {rows : List (Row κ)} (typed : Typed rows) {r : Row κ}
    (hr : r ∈ rows) : ∃ s, r c = .text s := by
  have h := typed r hr c (Columns.mem_all c)
  cases hv : r c with
  | null => simp [fits, hv, given] at h
  | int n => simp [fits, hv, hc] at h
  | text s => exact ⟨s, rfl⟩

@[simp] theorem eqValue_text (s t : String) :
    eqValue collate (.text s) (.text t) = some true ↔ collate s = collate t := by
  simp [eqValue]

/-- A key names one row. -/
theorem Keyed.eq_of_key {κ : Type} {key : κ} {rows : List (Row κ)} (keyed : Keyed collate key rows)
    {r r' : Row κ} (hr : r ∈ rows) (hr' : r' ∈ rows)
    (same : eqValue collate (r key) (r' key) = some true) : r = r' := by
  by_contra apart
  have : Std.Symm (fun r r' : Row κ => eqValue collate (r key) (r' key) ≠ some true) :=
    ⟨fun a b h => by rwa [eqValue_symm]⟩
  exact List.Pairwise.forall keyed hr hr' apart same

/-- Keys and references depend on the key column only. -/
theorem keyed_iff_keys {κ : Type} {key : κ} {rows : List (Row κ)} : Keyed collate key rows ↔
    (rows.map (· key)).Pairwise fun v v' => eqValue collate v v' ≠ some true := by
  rw [List.pairwise_map, Keyed]

theorem Keyed.of_keys {κ : Type} {key : κ} {rows rows' : List (Row κ)}
    (keyed : Keyed collate key rows) (keys : rows'.map (· key) = rows.map (· key)) :
    Keyed collate key rows' := by
  rw [keyed_iff_keys, keys]
  exact keyed_iff_keys.mp keyed

theorem Refers.of_keys {κ π : Type} {col : κ} {key : π} {rows : List (Row κ)}
    {parents parents' : List (Row π)} (refers : Refers collate col key rows parents)
    (keys : parents'.map (· key) = parents.map (· key)) :
    Refers collate col key rows parents' := by
  intro r hr
  rcases refers r hr with null | ⟨p, hp, same⟩
  · exact Or.inl null
  · have mem : p key ∈ parents'.map (· key) := keys ▸ List.mem_map_of_mem hp
    obtain ⟨p', hp', equal⟩ := List.mem_map.mp mem
    refine Or.inr ⟨p', hp', ?_⟩
    rw [equal]
    exact same

/-- What a varchar column holds. -/
theorem varchar_cases {κ : Type} [Columns κ] {c : κ} {m : Nat} (hc : Columns.type c = .varchar m)
    {rows : List (Row κ)} (typed : Typed rows) {r : Row κ} (hr : r ∈ rows) :
    r c = .null ∧ Columns.nullable c = true ∨ ∃ s, r c = .text s ∧ s.length ≤ m := by
  have h := typed r hr c (Columns.mem_all c)
  cases hv : r c with
  | null => exact Or.inl ⟨rfl, by simpa [fits, hv] using h⟩
  | int n => simp [fits, hv, hc] at h
  | text s => exact Or.inr ⟨s, rfl, by simpa [fits, hv, hc] using h⟩

/-- A text column that is given a value holds a text. -/
theorem store_text {κ : Type} [Columns κ] {c : κ} {m : Nat} (hc : Columns.type c = .varchar m)
    {v : Value} (given : v ≠ .null) : ∃ s, store c v = .text s := by
  cases v with
  | null => exact absurd rfl given
  | int n => exact ⟨cut m (toString n), by simp [store, hc]⟩
  | text s => exact ⟨cut m s, by simp [store, hc]⟩

/-- A text that fits is stored as it is. -/
theorem store_fitting {κ : Type} [Columns κ] {c : κ} {s : String} (h : fits c (.text s) = true) :
    store c (.text s) = .text s := by
  cases ht : Columns.type c with
  | varchar m =>
    simp only [fits, ht, decide_eq_true_eq] at h
    simp [store, ht, cut_of_le h]
  | int => simp [fits, ht] at h
  | timestamp => simp [fits, ht] at h

theorem lit_value_ne_null {l : Lit} (h : l ≠ .null) : l.value ≠ .null := by
  cases l with
  | null => exact absurd rfl h
  | num n => nofun
  | str s => nofun

/-- Literals that are not NULL where NULL is forbidden make a row. -/
theorem fill_some (collate : String → String) {κ : Type} [DecidableEq κ] [Columns κ]
    {sets : List (κ × Rhs κ)}
    (given : ∀ p ∈ sets, ∃ l, p.2 = .lit l ∧ (l = .null → Columns.nullable p.1 = true))
    (r : Row κ) :
    ∃ r', fill collate sets r = some r' := by
  induction sets generalizing r with
  | nil => exact ⟨r, rfl⟩
  | cons p sets ih =>
    obtain ⟨l, literal, allowed⟩ := given p List.mem_cons_self
    have accepted : ¬ (p.2.value collate r = .null ∧ Columns.nullable p.1 = false) := by
      rintro ⟨null, forbidden⟩
      rw [literal] at null
      by_cases missing : l = .null
      · simp [allowed missing] at forbidden
      · exact lit_value_ne_null missing null
    obtain ⟨r', filled⟩ := ih (fun p' h => given p' (List.mem_cons_of_mem p h)) _
    exact ⟨r', by rw [fill, if_neg accepted, filled]⟩

/-- What is stored in a column that is not a timestamp fits it. -/
theorem fits_store {κ : Type} [Columns κ] {c : κ} (hc : Columns.type c ≠ .timestamp) (v : Value) :
    fits c (store c v) = true := by
  have hcut : ∀ m s, (cut m s).length ≤ m := fun m s => by simp [cut, String.length_ofList]
  cases ht : Columns.type c with
  | timestamp => exact absurd ht hc
  | int =>
    cases v with
    | null =>
      cases hn : Columns.nullable c with
      | true => simp [store, hn, fits]
      | false => simp [store, ht, hn, fits, zero]
    | int n => simp [store, ht, fits, clip]
    | text s => simp [store, ht, fits, clip]
  | varchar m =>
    cases v with
    | null =>
      cases hn : Columns.nullable c with
      | true => simp [store, hn, fits]
      | false => simp [store, ht, hn, fits, zero]
    | int n => simp [store, ht, fits, hcut]
    | text s => simp [store, ht, fits, hcut]

/-- A row of a table without timestamps still fits after an update. -/
theorem fits_assign (collate : String → String) {κ : Type} [DecidableEq κ] [Columns κ]
    (undated : ∀ c : κ, Columns.type c ≠ .timestamp) (sets : List (κ × Rhs κ)) {r : Row κ}
    (h : ∀ c, fits c (r c) = true) (c : κ) : fits c (assign collate sets r c) = true := by
  induction sets generalizing r with
  | nil => exact h c
  | cons s sets ih =>
    rw [assign_cons]
    refine ih fun d => ?_
    by_cases hd : d = s.1
    · subst hd
      rw [Function.update_self]
      exact fits_store (undated _) _
    · rw [Function.update_of_ne hd]
      exact h d

end Cells

end Sql
