import OneRoof.Identity
import OneRoof.Lib.Growth

/-!
# What a run leaves of the tables

Over a whole run the tables only change in a few ways. Houses, groups, memberships of
groups, assignments, bills and chores are added and never touched again. Of a user the
profile may change and of a task its status and the date it was archived, but neither goes
away and nothing else of them changes. Comments and memberships of houses may be removed,
but they are not changed either, and no number is given out twice.
-/

namespace OneRoof

open Sql Async Growth

variable {P : Platform}

/-- The two columns of a task that `removeTask` and `updateTask` set. -/
def TaskCol.isStatus : TaskCol → Bool
  | .task_status | .task_archived_date => true
  | _ => false

/-- The same row, but for the columns that may change. -/
def Keeps {κ : Type} (may : κ → Bool) (r r' : Row κ) : Prop := ∀ c, may c = false → r' c = r c

/-- A row whose number was not given out before. -/
def NewNumber {κ : Type} (key : κ) (n : Nat) (r : Row κ) : Prop :=
  ∃ k : Nat, n ≤ k ∧ r key = .int k

theorem Keeps.refl {κ : Type} (may : κ → Bool) (r : Row κ) : Keeps may r r := fun _ _ => rfl

theorem Keeps.trans {κ : Type} (may : κ → Bool) (r r' r'' : Row κ) (first : Keeps may r r')
    (second : Keeps may r' r'') : Keeps may r r'' :=
  fun c fixed => (second c fixed).trans (first c fixed)

theorem NewNumber.weaken {κ : Type} {key : κ} {m n : Nat} (le : m ≤ n) (r : Row κ)
    (new : NewNumber key n r) : NewNumber key m r := by
  obtain ⟨k, large, number⟩ := new
  exact ⟨k, Nat.le_trans le large, number⟩

/-- Each counter has gone up or stayed. -/
structure Counters.Le (n n' : Counters) : Prop where
  user : n.user ≤ n'.user
  house : n.house ≤ n'.house
  houseUser : n.houseUser ≤ n'.houseUser
  group : n.group ≤ n'.group
  userGroups : n.userGroups ≤ n'.userGroups
  userTask : n.userTask ≤ n'.userTask
  comment : n.comment ≤ n'.comment

/-- What can have become of tables and counters. -/
structure Grows (t : Tables) (n : Counters) (t' : Tables) (n' : Counters) : Prop where
  user : Grown (Keeps UserCol.isProfile) t.user t'.user
  task : Grown (Keeps TaskCol.isStatus) t.task t'.task
  house : t.house <+: t'.house
  group : t.group <+: t'.group
  userGroups : t.userGroups <+: t'.userGroups
  userTask : t.userTask <+: t'.userTask
  bill : t.bill <+: t'.bill
  chore : t.chore <+: t'.chore
  houseUser : Thinned (NewNumber HouseUserCol.house_user_id n.houseUser) t.houseUser t'.houseUser
  comment : Thinned (NewNumber CommentCol.comment_id n.comment) t.comment t'.comment
  next : n.Le n'

theorem Counters.Le.refl (n : Counters) : n.Le n := by
  constructor <;> exact Nat.le_refl _

theorem Counters.Le.trans {n n' n'' : Counters} (first : n.Le n') (second : n'.Le n'') :
    n.Le n'' where
  user := first.user.trans second.user
  house := first.house.trans second.house
  houseUser := first.houseUser.trans second.houseUser
  group := first.group.trans second.group
  userGroups := first.userGroups.trans second.userGroups
  userTask := first.userTask.trans second.userTask
  comment := first.comment.trans second.comment

theorem Grows.refl (t : Tables) (n : Counters) : Grows t n t n where
  user := .refl (Keeps.refl _) _
  task := .refl (Keeps.refl _) _
  house := List.prefix_rfl
  group := List.prefix_rfl
  userGroups := List.prefix_rfl
  userTask := List.prefix_rfl
  bill := List.prefix_rfl
  chore := List.prefix_rfl
  houseUser := .refl _ _
  comment := .refl _ _
  next := .refl n

theorem Grows.trans {t t' t'' : Tables} {n n' n'' : Counters} (first : Grows t n t' n')
    (second : Grows t' n' t'' n'') : Grows t n t'' n'' where
  user := first.user.trans (Keeps.trans _) second.user
  task := first.task.trans (Keeps.trans _) second.task
  house := first.house.trans second.house
  group := first.group.trans second.group
  userGroups := first.userGroups.trans second.userGroups
  userTask := first.userTask.trans second.userTask
  bill := first.bill.trans second.bill
  chore := first.chore.trans second.chore
  houseUser := first.houseUser.trans (NewNumber.weaken first.next.houseUser) second.houseUser
  comment := first.comment.trans (NewNumber.weaken first.next.comment) second.comment
  next := first.next.trans second.next

/-- An update leaves the columns that it does not set. -/
theorem update_keeps {κ : Type} [DecidableEq κ] [Columns κ] {collate : String → String}
    {q : Cond κ} {sets : List (κ × Rhs κ)} {may : κ → Bool}
    (allowed : ∀ e ∈ sets, may e.1 = true) (rows : List (Row κ)) :
    Grown (Keeps may) rows (update collate q sets rows) := by
  refine Grown.map (fun r c fixed => ?_) rows
  split
  · refine assign_frame (fun e mem same => ?_) r
    rw [← same, allowed e mem] at fixed
    cases fixed
  · rfl

section Statements

variable {c : Ctx} {s : Stmt} {r : s.Reply} {db db' : Database P.collate}

/-- The status of a task is all that a plain request sets. -/
theorem Sends.setsTask_status (sends : Sends P c s) (plain : c.req.Plain)
    {sets : List (TaskCol × Rhs TaskCol)} {q : Cond TaskCol}
    (writes : s.setsTask = some (sets, q)) : ∀ e ∈ sets, e.1.isStatus = true := by
  cases sends with
  | select reads => cases s <;> simp_all [Stmt.isSelect, Stmt.setsTask]
  | removeTask =>
    obtain ⟨q, -, writes⟩ := Option.bind_eq_some_iff.mp writes
    cases writes
    simp [TaskCol.isStatus]
  | updateTask =>
    obtain ⟨status, parsed, writes⟩ := Option.bind_eq_some_iff.mp writes
    obtain ⟨q, -, writes⟩ := Option.bind_eq_some_iff.mp writes
    rw [setTo_scalar _ (plain.body _ (by decide))] at parsed
    cases parsed
    cases writes
    simp [TaskCol.isStatus]
  | _ => cases writes

/-- One statement of a plain request. -/
theorem exec_grows (sends : Sends P c s) (plain : c.req.Plain)
    (he : exec P.collate s db = some (r, db')) :
    Grows db.tables db.next db'.tables db'.next := by
  have effect := exec_effect he
  generalize db'.tables = t at effect ⊢
  generalize db'.next = n at effect ⊢
  have same := Grows.refl db.tables db.next
  cases effect with
  | select reads => exact same
  | @setUser _ col v id sets writes parsed =>
    obtain ⟨scalar, profile, -⟩ := sends.updates plain writes
    rw [setTo_scalar _ scalar] at parsed
    cases parsed
    exact { same with user := update_keeps (by simp [profile]) _ }
  | setTask writes =>
    exact { same with task := update_keeps (sends.setsTask_status plain writes) _ }
  | createUser filled =>
    exact { same with
      user := .append (Keeps.refl _) _ _
      next := { Counters.Le.refl db.next with user := Nat.le_succ _ } }
  | createHouse row =>
    exact { same with
      house := List.prefix_append _ _
      next := { Counters.Le.refl db.next with house := Nat.le_succ _ } }
  | createGroup row =>
    exact { same with
      group := List.prefix_append _ _
      next := { Counters.Le.refl db.next with group := Nat.le_succ _ } }
  | addUserToGroup row =>
    exact { same with
      userGroups := List.prefix_append _ _
      next := { Counters.Le.refl db.next with userGroups := Nat.le_succ _ } }
  | createTask row => exact { same with task := .append (Keeps.refl _) _ _ }
  | updateUserTaskTable filled =>
    exact { same with
      userTask := List.prefix_append _ _
      next := { Counters.Le.refl db.next with userTask := Nat.le_succ _ } }
  | updateBillTable row => exact { same with bill := List.prefix_append _ _ }
  | updateChoreTable row => exact { same with chore := List.prefix_append _ _ }
  | removeUserHouse stays => exact { same with houseUser := .filter _ _ _ }
  | deleteComment => exact { same with comment := .filter _ _ _ }
  | @addUserToHouse houseId userId row filled =>
    have number : row .house_user_id = .int db.next.houseUser := newRow_key filled (by simp)
    refine { same with
      houseUser := .append (fun r mem => ?_) _
      next := { Counters.Le.refl db.next with houseUser := Nat.le_succ _ } }
    rw [List.mem_singleton.mp mem]
    exact ⟨_, Nat.le_refl _, number⟩
  | @addComment _ _ _ stamp row filled =>
    have number : row .comment_id = .int db.next.comment := newRow_key filled (by simp)
    refine { same with
      comment := .append (fun r mem => ?_) _
      next := { Counters.Le.refl db.next with comment := Nat.le_succ _ } }
    rw [List.mem_singleton.mp mem]
    exact ⟨_, Nat.le_refl _, number⟩

end Statements

section Runs

variable {σ : Config P}

theorem step_grows {l : Label P} (plain : PlainLabel P l) (sent : Sent Request.Plain σ) :
    Grows σ.world.db.tables σ.world.db.next (step (server P) l σ).world.db.tables
      (step (server P) l σ).world.db.next := by
  rcases step_db_cases l plain.own σ with same | ⟨i, p, r, -, hp, he⟩
  · rw [same]
    exact .refl _ _
  · obtain ⟨⟨asked, sends⟩, -⟩ := sent p (List.mem_of_getElem? hp)
    exact exec_grows sends asked he

theorem step_plain_sent {l : Label P} (plain : PlainLabel P l) (sent : Sent Request.Plain σ) :
    Sent Request.Plain (step (server P) l σ) :=
  step_sent l plain.plain σ sent

theorem run_plain_sent {ls : List (Label P)} (plain : ∀ l ∈ ls, PlainLabel P l)
    (sent : Sent Request.Plain σ) : Sent Request.Plain (run (server P) ls σ) :=
  run_invariant _ (Sent Request.Plain) (fun _ _ label held => step_plain_sent label held)
    (along_of_forall (PlainLabel P) plain σ) sent

theorem sent_run_grows {ls : List (Label P)} (plain : ∀ l ∈ ls, PlainLabel P l)
    (sent : Sent Request.Plain σ) :
    Grows σ.world.db.tables σ.world.db.next (run (server P) ls σ).world.db.tables
      (run (server P) ls σ).world.db.next := by
  induction ls generalizing σ with
  | nil => exact .refl _ _
  | cons l ls ih =>
    have label := plain l List.mem_cons_self
    exact (step_grows label sent).trans (ih (fun l' mem => plain l' (List.mem_cons_of_mem l mem))
      (step_plain_sent label sent))

/-- However plain requests interleave, what a run has put into the tables is still there
later, changed only where the program changes rows. -/
theorem run_grows (P : Platform) (before after : List (Label P))
    (plain : ∀ l ∈ before ++ after, PlainLabel P l) :
    Grows (run (server P) before (startUp P)).world.db.tables
      (run (server P) before (startUp P)).world.db.next
      (run (server P) (before ++ after) (startUp P)).world.db.tables
      (run (server P) (before ++ after) (startUp P)).world.db.next := by
  rw [run_append]
  exact sent_run_grows (fun l mem => plain l (List.mem_append_right _ mem))
    (run_plain_sent (fun l mem => plain l (List.mem_append_left _ mem)) (startUp_sent _))

theorem run_grows_sample :
    (run (server samplePlatform) (annsDay.take 6) (startUp samplePlatform)).world.db.tables.user ≠
      [] ∧
    Grows (run (server samplePlatform) (annsDay.take 6) (startUp samplePlatform)).world.db.tables
      (run (server samplePlatform) (annsDay.take 6) (startUp samplePlatform)).world.db.next
      (run (server samplePlatform) (annsDay.take 6 ++ annsDay.drop 6)
        (startUp samplePlatform)).world.db.tables
      (run (server samplePlatform) (annsDay.take 6 ++ annsDay.drop 6)
        (startUp samplePlatform)).world.db.next :=
  ⟨by decide +kernel, run_grows samplePlatform _ _ fun l mem =>
    annsDay_plain l (by rwa [List.take_append_drop] at mem)⟩

end Runs

end OneRoof
