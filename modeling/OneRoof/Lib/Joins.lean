import Mathlib.Data.List.Nodup
import OneRoof.Lib.Sql

/-!
# Rows of joined tables

Keys that are never NULL tell the rows of a table apart, and with them the rows of
a join. A row of one of the tables then shows as often as there are ways to join it.
-/

namespace Sql

variable {collate : String → String}

theorem eqValue_int {m n : Int} : eqValue collate (.int m) (.int n) = some true ↔ m = n := by
  simp [eqValue]

theorem eqLit_int {m n : Int} : eqLit collate (.int m) (.num n) = some true ↔ m = n := by
  simp [eqLit]

theorem eqValue_refl {v : Value} (given : v ≠ .null) : eqValue collate v v = some true := by
  cases v with
  | null => exact absurd rfl given
  | int n => exact eqValue_int.mpr rfl
  | text s => exact (eqValue_text s s).mpr rfl

/-- Keys that are given are distinct values. -/
theorem Keyed.keys_nodup {κ : Type} {key : κ} {rows : List (Row κ)} (keyed : Keyed collate key rows)
    (given : ∀ r ∈ rows, r key ≠ .null) : (rows.map (· key)).Nodup := by
  refine List.pairwise_map.mpr (List.Pairwise.imp_of_mem ?_ keyed)
  intro r r' hr _ apart same
  exact apart (same ▸ eqValue_refl (given r hr))

section IntColumns

variable {κ π : Type} [Columns κ] [Columns π] {c : κ} {d : π}

/-- Integer columns that forbid NULL are equal in the sense of the database when they hold
the same number. -/
theorem int_cells_equal (hc : Columns.type c = .int ∧ Columns.nullable c = false)
    (hd : Columns.type d = .int ∧ Columns.nullable d = false) {rows : List (Row κ)}
    {rows' : List (Row π)} (typed : Typed rows) (typed' : Typed rows') {r : Row κ} {r' : Row π}
    (hr : r ∈ rows) (hr' : r' ∈ rows') :
    eqValue collate (r c) (r' d) = some true ↔ r c = r' d := by
  obtain ⟨m, hm⟩ := int_cell hc.1 hc.2 typed hr
  obtain ⟨n, hn⟩ := int_cell hd.1 hd.2 typed' hr'
  rw [hm, hn, eqValue_int]
  exact ⟨congrArg Value.int, Value.int.inj⟩

theorem int_cell_lit (hc : Columns.type c = .int ∧ Columns.nullable c = false)
    {rows : List (Row κ)} (typed : Typed rows) {r : Row κ} (hr : r ∈ rows) (n : Int) :
    eqLit collate (r c) (.num n) = some true ↔ r c = .int n := by
  obtain ⟨m, hm⟩ := int_cell hc.1 hc.2 typed hr
  rw [hm, eqLit_int]
  exact ⟨congrArg Value.int, Value.int.inj⟩

/-- The numbers of an integer key tell the rows apart. -/
theorem Keyed.int_keys {rows : List (Row κ)} (keyed : Keyed collate c rows)
    (hc : Columns.type c = .int ∧ Columns.nullable c = false) (typed : Typed rows) :
    (rows.map (· c)).Nodup := by
  refine keyed.keys_nodup fun r hr null => ?_
  obtain ⟨n, hn⟩ := int_cell hc.1 hc.2 typed hr
  rw [hn] at null
  cases null

theorem Keyed.eq_of_number {rows : List (Row κ)} (keyed : Keyed collate c rows)
    (hc : Columns.type c = .int ∧ Columns.nullable c = false) (typed : Typed rows) {r r' : Row κ}
    (hr : r ∈ rows) (hr' : r' ∈ rows) (same : r c = r' c) : r = r' :=
  keyed.eq_of_key hr hr' ((int_cells_equal hc hc typed typed hr hr').mpr same)

end IntColumns

section Nested

variable {α β : Type}

/-- The rows of a nested loop are distinct when each of them tells its outer row. -/
theorem nodup_nested {l : List α} {f : α → List β} (outer : β → α) (distinct : l.Nodup)
    (inner : ∀ a ∈ l, (f a).Nodup) (tells : ∀ a, ∀ b ∈ f a, outer b = a) :
    (l.flatMap f).Nodup := by
  refine List.nodup_flatMap.mpr ⟨inner, distinct.imp ?_⟩
  intro a a' apart
  change List.Disjoint (f a) (f a')
  rw [List.disjoint_left]
  intro b hb hb'
  exact apart ((tells a b hb).symm.trans (tells a' b hb'))

/-- What passes a test that one row passes at most is one row. -/
theorem eq_of_countP_le_one {l : List α} {p : α → Bool} (once : l.countP p ≤ 1) {a b : α}
    (ha : a ∈ l) (hb : b ∈ l) (hpa : p a = true) (hpb : p b = true) : a = b := by
  rw [List.countP_eq_length_filter] at once
  have mem : a ∈ l.filter p := List.mem_filter.mpr ⟨ha, hpa⟩
  have mem' : b ∈ l.filter p := List.mem_filter.mpr ⟨hb, hpb⟩
  generalize l.filter p = passed at once mem mem'
  match passed with
  | [] => cases mem
  | [c] => rw [List.mem_singleton.mp mem, List.mem_singleton.mp mem']
  | _ :: _ :: _ => simp at once

/-- Of distinct rows exactly one passes a test when some do and any two are one. -/
theorem countP_eq_one_iff {l : List α} (distinct : l.Nodup) {p : α → Bool} :
    l.countP p = 1 ↔
      (∃ a ∈ l, p a = true) ∧ ∀ a ∈ l, ∀ b ∈ l, p a = true → p b = true → a = b := by
  constructor
  · intro one
    have passes : 0 < l.countP p := by omega
    exact ⟨List.countP_pos_iff.mp passes, fun a ha b hb hpa hpb =>
      eq_of_countP_le_one (Nat.le_of_eq one) ha hb hpa hpb⟩
  · rintro ⟨⟨a, ha, hp⟩, same⟩
    rw [List.countP_eq_length_filter]
    have passed : (l.filter p).Nodup := distinct.filter p
    have only : ∀ b ∈ l.filter p, b = a := by
      intro b hb
      exact same b (List.mem_filter.mp hb).1 a ha (List.mem_filter.mp hb).2 hp
    have mem : a ∈ l.filter p := List.mem_filter.mpr ⟨ha, hp⟩
    generalize l.filter p = passing at passed only mem
    match passing with
    | [] => cases mem
    | [b] => rfl
    | b :: b' :: more =>
      have hb := only b List.mem_cons_self
      have hb' := only b' (List.mem_cons_of_mem _ List.mem_cons_self)
      rw [hb, hb'] at passed
      exact absurd List.mem_cons_self (List.nodup_cons.mp passed).1

/-- A loop in which one row alone does something. -/
theorem flatMap_only {l : List α} {f : α → List β} (distinct : l.Nodup) {a : α} (mem : a ∈ l)
    (others : ∀ b ∈ l, b ≠ a → f b = []) : l.flatMap f = f a := by
  obtain ⟨before, after, rfl⟩ := List.append_of_mem mem
  have apart : a ∉ before ++ after := (List.nodup_cons.mp (List.nodup_middle.mp distinct)).1
  have idle : ∀ b ∈ before ++ after, f b = [] := by
    intro b hb
    refine others b ?_ fun same => apart (same ▸ hb)
    exact List.perm_middle.mem_iff.mpr (List.mem_cons_of_mem a hb)
  have first : before.flatMap f = [] :=
    List.flatMap_eq_nil_iff.mpr fun b hb => idle b (List.mem_append_left _ hb)
  have last : after.flatMap f = [] :=
    List.flatMap_eq_nil_iff.mpr fun b hb => idle b (List.mem_append_right _ hb)
  rw [List.flatMap_append, List.flatMap_cons, first, last, List.nil_append, List.append_nil]

end Nested

section Shown

variable {α β γ δ : Type} {l : List α} {l' : List β} {f : α → γ} {g : β → γ}

/-- A loop over rows is one over what the rows show. -/
theorem flatMap_shown (shown : l.map f = l'.map g) {F : α → List δ} {G : β → List δ}
    (same : ∀ x ∈ l, ∀ y, f x = g y → F x = G y) : l.flatMap F = l'.flatMap G := by
  induction l generalizing l' with
  | nil =>
    rw [List.map_nil, eq_comm, List.map_eq_nil_iff] at shown
    rw [shown]
    rfl
  | cons x l ih =>
    cases l' with
    | nil => cases shown
    | cons y l' =>
      obtain ⟨first, rest⟩ := List.cons.inj shown
      rw [List.flatMap_cons, List.flatMap_cons, same x List.mem_cons_self y first,
        ih rest fun x' mem => same x' (List.mem_cons_of_mem x mem)]

/-- A filtered list as a loop. -/
theorem filter_map_eq_flatMap (p : α → Bool) (F : α → δ) (l : List α) :
    (l.filter p).map F = l.flatMap fun x => if p x then [F x] else [] := by
  induction l with
  | nil => rfl
  | cons x l ih =>
    rw [List.flatMap_cons, ← ih, List.filter_cons]
    cases p x <;> rfl

end Shown

end Sql
