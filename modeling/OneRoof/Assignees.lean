import Mathlib.Data.List.InsertIdx
import Mathlib.Data.List.Perm.Basic
import Mathlib.Data.List.Nodup
import OneRoof.Feed

/-!
# Choosing the people of a task

The form for a new task moves the members of the house between the list of housemates and
the list of assignees. `addAssignee` looks for the person that was chosen by email, with a
loop that ends at the last match, and takes that one out of the list; what it adds is a copy
of the one that was chosen. Two members without an email, or with one email, are confused.
-/

namespace OneRoof

open Sql

/-- A choice in the form, by its place in the list that is shown. -/
inductive Pick where
  | add (i : Nat)
  | remove (j : Nat)

namespace Feed

def pick : Pick → Feed → Feed
  | .add i, s => match s.housemates[i]? with
    | some housemate => { s with currentHousemate := housemate }.addAssignee
    | none => s
  | .remove j, s => s.removeAssignee j

def userIds (members : List JsVal) : List JsVal := members.map fun v => v.get "user_id"

/-- Nobody is lost, nobody is there twice. -/
def Partitioned (s : Feed) : Prop :=
  (userIds (s.housemates ++ s.assignees)).Perm (userIds s.pureHousemates)

/-- It is the chosen person who changes the list. -/
def MovesChosen (s : Feed) : Pick → Prop
  | .add i => ∀ v ∈ s.housemates[i]?,
      userIds (s.pick (.add i)).housemates = userIds (s.housemates.eraseIdx i) ∧
        (s.pick (.add i)).assignees = s.assignees ++ [v]
  | .remove _ => True

/-- The property at every state and every step of a sequence of choices. -/
def Partitions : List Pick → Feed → Prop
  | [], s => s.Partitioned
  | m :: ms, s => s.Partitioned ∧ s.MovesChosen m ∧ Partitions ms (s.pick m)

/-- Nobody behind the chosen person has the same email. -/
def ChoosesLast (s : Feed) : Pick → Prop
  | .add i => ∀ v ∈ s.housemates[i]?, ∀ w ∈ s.housemates.drop (i + 1), sameEmail v w = false
  | .remove _ => True

def Chooses : List Pick → Feed → Prop
  | [], _ => True
  | m :: ms, s => s.ChoosesLast m ∧ Chooses ms (s.pick m)

instance (s : Feed) : (m : Pick) → Decidable (s.ChoosesLast m)
  | .add i => inferInstanceAs (Decidable (∀ v ∈ s.housemates[i]?, _))
  | .remove _ => isTrue trivial

instance decidableChooses : (ms : List Pick) → (s : Feed) → Decidable (Chooses ms s)
  | [], _ => isTrue trivial
  | m :: ms, s =>
    have := decidableChooses ms (s.pick m)
    inferInstanceAs (Decidable (s.ChoosesLast m ∧ Chooses ms (s.pick m)))

/-- Places of one list are told apart by what is left without them. -/
theorem eraseIdx_inj {α : Type} {l : List α} (distinct : l.Nodup) {i j : Nat} (hi : i < l.length)
    (same : l.eraseIdx j = l.eraseIdx i) : j = i := by
  by_contra apart
  have stays : l[i] ∈ l.eraseIdx j :=
    List.mem_eraseIdx_iff_getElem.mpr ⟨i, hi, fun h => apart h.symm, rfl⟩
  rw [same] at stays
  obtain ⟨k, hk, other, equal⟩ := List.mem_eraseIdx_iff_getElem.mp stays
  exact other ((List.Nodup.getElem_inj_iff distinct).mp equal)

section Rows

variable {rows : List (Row UserCol)}

theorem cellJs_inj {v w : Value} (same : cellJs v = cellJs w) : v = w := by
  cases v <;> cases w <;> cases same <;> rfl

theorem rowJs_inj {r r' : Row UserCol} (same : rowJs r = rowJs r') : r = r' := by
  have fields : fieldsOf r = fieldsOf r' := JsVal.obj.inj same
  funext c
  have pair := List.map_inj_left.mp fields c (Columns.mem_all c)
  exact cellJs_inj (Prod.mk.inj pair).2

theorem sameEmail_rows (u v : Row UserCol) : sameEmail (rowJs u) (rowJs v) =
    decide ((cellJs (v .email)).looseEq (cellJs (u .email)) = some true) := rfl

theorem sameEmail_self (u : Row UserCol) : sameEmail (rowJs u) (rowJs u) = true := by
  rw [sameEmail_rows]
  cases u .email with
  | null => rfl
  | int n => simp [cellJs, JsVal.looseEq, JsVal.isScalar, JsVal.scalarEq, JsVal.toNumber]
  | text t => simp [cellJs, JsVal.looseEq, JsVal.isScalar, JsVal.scalarEq]

theorem userIds_rows (rows : List (Row UserCol)) :
    userIds (rows.map rowJs) = (rows.map (· .user_id)).map cellJs := by
  rw [userIds, List.map_map, List.map_map]
  rfl

/-- The loop loads the rows into both lists, all of them or those in front of a member at
whom it breaks off. -/
theorem loadEach_rows (name : JsVal) (rows : List (Row UserCol)) (s : Feed) :
    ∃ loaded, loaded <+: rows ∧
      (loadEach name (rows.map rowJs) s).pureHousemates = s.pureHousemates ++ loaded.map rowJs ∧
      (loadEach name (rows.map rowJs) s).housemates = s.housemates ++ loaded.map rowJs ∧
      (loadEach name (rows.map rowJs) s).assignees = s.assignees := by
  induction rows generalizing s with
  | nil => exact ⟨[], List.prefix_rfl, by simp [loadEach], by simp [loadEach], rfl⟩
  | cons row rows ih =>
    simp only [List.map_cons, loadEach]
    cases isCurrent name (rowJs row) with
    | none => exact ⟨[], List.nil_prefix, by simp, by simp, rfl⟩
    | some current =>
      obtain ⟨loaded, front, pure, housemates, assignees⟩ := ih { s with
        userObj := if current then rowJs row else s.userObj
        pureHousemates := s.pureHousemates ++ [rowJs row]
        housemates := s.housemates ++ [rowJs row] }
      exact ⟨row :: loaded, List.cons_prefix_cons.mpr ⟨rfl, front⟩, by simp [pure],
        by simp [housemates], assignees⟩

/-- The two lists of the form hold the rows that were loaded, each of them once. -/
structure Split (loaded free taken : List (Row UserCol)) (s : Feed) : Prop where
  pureHousemates : s.pureHousemates = loaded.map rowJs
  housemates : s.housemates = free.map rowJs
  assignees : s.assignees = taken.map rowJs
  once : (free ++ taken).Perm loaded
  distinct : (loaded.map (· .user_id)).Nodup

theorem loadUsers_split (distinct : (rows.map (· .user_id)).Nodup) (currentTask me : JsVal) :
    ∃ loaded, Split loaded loaded [] ((start currentTask).loadUsers (.arr [me, rowsJs rows])) := by
  have fresh : (start currentTask).pureHousemates = [] ∧ (start currentTask).housemates = [] ∧
      (start currentTask).assignees = [] := by
    unfold start
    split <;> exact ⟨rfl, rfl, rfl⟩
  simp only [loadUsers, rowsJs]
  cases me.prop "displayName" with
  | none => exact ⟨[], fresh.1, fresh.2.1, fresh.2.2, List.Perm.refl _, List.nodup_nil⟩
  | some name =>
    obtain ⟨loaded, front, pure, housemates, assignees⟩ :=
      loadEach_rows name rows (start currentTask)
    rw [fresh.1, List.nil_append] at pure
    rw [fresh.2.1, List.nil_append] at housemates
    rw [fresh.2.2] at assignees
    exact ⟨loaded, pure, housemates, assignees, by simp,
      (front.sublist.map _).nodup distinct⟩

end Rows

section Moves

variable {loaded free taken : List (Row UserCol)} {s : Feed}

theorem Split.partitioned (split : Split loaded free taken s) : s.Partitioned := by
  rw [Partitioned, split.pureHousemates, split.housemates, split.assignees, ← List.map_append,
    userIds_rows, userIds_rows]
  exact (split.once.map _).map _

theorem Split.ids (split : Split loaded free taken s) :
    (userIds s.housemates).Nodup := by
  rw [split.housemates, userIds_rows]
  refine List.Nodup.map (fun _ _ => cellJs_inj) ?_
  have all := (split.once.map (fun r : Row UserCol => r .user_id)).nodup_iff.mpr split.distinct
  rw [List.map_append] at all
  exact (List.nodup_append.mp all).1

/-- The place the loop ends at holds somebody with the email of the chosen person. -/
theorem Split.found (split : Split loaded free taken s) {i : Nat} {u : Row UserCol}
    (hu : free[i]? = some u) :
    ∃ index v, lastIndex (sameEmail (rowJs u)) s.housemates = some index ∧
      free[index]? = some v := by
  have there : rowJs u ∈ s.housemates := by
    rw [split.housemates]
    exact List.mem_map_of_mem (List.mem_of_getElem? hu)
  cases found : lastIndex (sameEmail (rowJs u)) s.housemates with
  | none => simpa [sameEmail_self] using lastIndex_eq_none.mp found _ there
  | some index =>
    obtain ⟨⟨w, hw, -⟩, -⟩ := lastIndex_eq_some.mp found
    rw [split.housemates, List.getElem?_map] at hw
    obtain ⟨v, hv, -⟩ := Option.map_eq_some_iff.mp hw
    exact ⟨index, v, rfl, hv⟩

/-- What `addAssignee` does when its loop ends at a place. -/
theorem pick_add {i index : Nat} {v : JsVal} (chosen : s.housemates[i]? = some v)
    (found : lastIndex (sameEmail v) s.housemates = some index) :
    s.pick (.add i) = { s with
      currentHousemate := v
      housemates := s.housemates.eraseIdx index
      assignees := s.assignees ++ [v] } := by
  simp only [pick, chosen, addAssignee, found]

/-- The right person is moved when the loop ends at the place of the choice. -/
theorem Split.movesChosen_iff (split : Split loaded free taken s) (m : Pick) :
    s.MovesChosen m ↔ s.ChoosesLast m := by
  cases m with
  | remove j => exact Iff.rfl
  | add i =>
    refine forall₂_congr fun v chosen => ?_
    have chosen : s.housemates[i]? = some v := chosen
    have at_row := chosen
    rw [split.housemates, List.getElem?_map] at at_row
    obtain ⟨u, hu, rfl⟩ := Option.map_eq_some_iff.mp at_row
    obtain ⟨index, -, found, -⟩ := split.found hu
    have there : i < (userIds s.housemates).length := by
      rw [userIds, List.length_map]
      exact (List.getElem?_eq_some_iff.mp chosen).1
    have last : index = i ↔ ∀ w ∈ s.housemates.drop (i + 1), sameEmail (rowJs u) w = false := by
      constructor
      · rintro rfl
        exact (lastIndex_eq_some.mp found).2
      · intro behind
        have here := lastIndex_eq_some.mpr ⟨⟨rowJs u, chosen, sameEmail_self u⟩, behind⟩
        exact Option.some.inj (found.symm.trans here)
    rw [pick_add chosen found, ← last]
    constructor
    · rintro ⟨ids, -⟩
      refine eraseIdx_inj split.ids there ?_
      simpa only [userIds, List.eraseIdx_map] using ids
    · rintro rfl
      exact ⟨rfl, rfl⟩

/-- A choice that moves the right person keeps everybody in one list. -/
theorem Split.pick (split : Split loaded free taken s) (m : Pick)
    (chooses : s.ChoosesLast m) :
    ∃ free' taken', Split loaded free' taken' (s.pick m) := by
  cases m with
  | add i =>
    cases chosen : s.housemates[i]? with
    | none =>
      simp only [Feed.pick, chosen]
      exact ⟨free, taken, split⟩
    | some v =>
      have at_row := chosen
      rw [split.housemates, List.getElem?_map] at at_row
      obtain ⟨u, hu, rfl⟩ := Option.map_eq_some_iff.mp at_row
      have found := lastIndex_eq_some.mpr ⟨⟨rowJs u, chosen, sameEmail_self u⟩,
        chooses _ (Option.mem_def.mpr chosen)⟩
      rw [pick_add chosen found]
      refine ⟨free.eraseIdx i, taken ++ [u], split.pureHousemates, ?_, ?_, ?_,
        split.distinct⟩
      · rw [split.housemates, List.eraseIdx_map]
      · rw [split.assignees, List.map_append]
        rfl
      · refine List.Perm.trans ?_ split.once
        obtain ⟨lt, rfl⟩ := List.getElem?_eq_some_iff.mp hu
        have moved := (List.getElem_cons_eraseIdx_perm lt).append_right taken
        refine List.Perm.trans ?_ moved
        rw [← List.append_assoc]
        exact List.perm_append_comm
  | remove j =>
    cases chosen : s.assignees[j]? with
    | none =>
      simp only [Feed.pick, removeAssignee, chosen]
      exact ⟨free, taken, split⟩
    | some v =>
      have at_row := chosen
      rw [split.assignees, List.getElem?_map] at at_row
      obtain ⟨u, hu, rfl⟩ := Option.map_eq_some_iff.mp at_row
      simp only [Feed.pick, removeAssignee, chosen]
      refine ⟨free ++ [u], taken.eraseIdx j, split.pureHousemates, ?_, ?_, ?_,
        split.distinct⟩
      · rw [split.housemates, List.map_append]
        rfl
      · rw [split.assignees, List.eraseIdx_map]
      · refine List.Perm.trans ?_ split.once
        obtain ⟨lt, rfl⟩ := List.getElem?_eq_some_iff.mp hu
        rw [List.append_assoc]
        exact (List.getElem_cons_eraseIdx_perm lt).append_left free

theorem Split.partitions_iff (split : Split loaded free taken s) (ms : List Pick) :
    s.Partitions ms ↔ s.Chooses ms := by
  induction ms generalizing s free taken with
  | nil => exact iff_of_true split.partitioned trivial
  | cons m ms ih =>
    simp only [Partitions, Chooses, split.movesChosen_iff m]
    constructor
    · rintro ⟨-, chooses, later⟩
      obtain ⟨free', taken', split'⟩ := split.pick m chooses
      exact ⟨chooses, (ih split').mp later⟩
    · rintro ⟨chooses, later⟩
      obtain ⟨free', taken', split'⟩ := split.pick m chooses
      exact ⟨split.partitioned, chooses, (ih split').mpr later⟩

end Moves

end Feed

/-- For every list of members and every sequence of choices: the lists are a partition all
along, and the chosen people are moved, exactly when nobody is chosen in front of somebody
with the same email. -/
theorem assignees_partition_iff (currentTask me : JsVal) {rows : List (Row UserCol)}
    (distinct : (rows.map (· .user_id)).Nodup) (ms : List Pick) :
    ((Feed.start currentTask).loadUsers (.arr [me, rowsJs rows])).Partitions ms ↔
      ((Feed.start currentTask).loadUsers (.arr [me, rowsJs rows])).Chooses ms := by
  obtain ⟨loaded, split⟩ := Feed.loadUsers_split distinct currentTask me
  exact split.partitions_iff ms

/-- A member of a house, with what the page looks at. -/
def houseMember (n : Int) (displayName : String) (email : Value) : Row UserCol
  | .user_id => .int n
  | .displayName => .text displayName
  | .email => email
  | _ => .null

/-- The page of Ann, with the members of her house loaded. -/
def annsForm (members : List (Row UserCol)) : Feed :=
  (Feed.start .null).loadUsers (.arr [.obj [("displayName", .str "Ann")], rowsJs members])

/-- Ann, and Ben, who has no email. -/
def annBen : List (Row UserCol) :=
  [houseMember 1 "Ann" (.text "ann@x"), houseMember 2 "Ben" .null]

/-- Ann is chosen, then Ben, and Ann is taken back. -/
theorem assignees_partition_sample : (annsForm annBen).Partitions [.add 0, .add 0, .remove 0] :=
  (assignees_partition_iff .null (.obj [("displayName", .str "Ann")]) (by decide)
    [.add 0, .add 0, .remove 0]).mpr (by decide +kernel)

/-- Ben and Cid have no email: when Ben is chosen, Cid is lost, and Ben is in both lists. -/
theorem facebook_member_lost :
    ([houseMember 2 "Ben" .null, houseMember 3 "Cid" .null].map (· .user_id)).Nodup ∧
    ¬ (annsForm [houseMember 2 "Ben" .null, houseMember 3 "Cid" .null]).Partitions [.add 0] := by
  have distinct :
      ([houseMember 2 "Ben" .null, houseMember 3 "Cid" .null].map (· .user_id)).Nodup := by decide
  refine ⟨distinct, fun partitions => ?_⟩
  obtain ⟨loaded, split⟩ := Feed.loadUsers_split distinct .null (.obj [("displayName", .str "Ann")])
  exact absurd ((split.partitions_iff [.add 0]).mp partitions) (by decide +kernel)

end OneRoof
