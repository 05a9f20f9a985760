import OneRoof.Unauthenticated

/-!
# Requests that write several rows

A task comes with a link for each owner and with a bill or a chore, a group with
its members, a house with the user who made it. Each is one insert followed by
others that nobody waits for, and there is no transaction around them: whatever
follows the first insert can fail on its own.
-/

namespace OneRoof

open Sql Async Async.Prog Prog

variable {P : Platform}

/-- A task, a link for each owner, and one bill or one chore. -/
structure TaskWhole (taskID : String) (owners : Nat) (t t' : Tables) : Prop where
  task : ∃ row, t'.task = t.task ++ [row] ∧ row .task_id = .text taskID
  links : ∃ rows, t'.userTask = t.userTask ++ rows ∧ rows.length = owners ∧
    ∀ r ∈ rows, r .task_id = .text taskID
  detail : (∃ row, t'.bill = t.bill ++ [row] ∧ row .task_id = .text taskID ∧
      t'.chore = t.chore) ∨
    ∃ row, t'.chore = t.chore ++ [row] ∧ row .task_id = .text taskID ∧ t'.bill = t.bill

/-- A group and a row for each member. -/
def GroupWhole (members : Nat) (t t' : Tables) : Prop :=
  ∃ g rows, t'.group = t.group ++ [g] ∧ t'.userGroups = t.userGroups ++ rows ∧
    rows.length = members ∧ ∀ r ∈ rows, r .group_id = g .group_id

/-- A house and the row that puts its creator in it. -/
def HouseWhole (user : Option SessionUser) (t t' : Tables) : Prop :=
  ∃ h m, t'.house = t.house ++ [h] ∧ t'.houseUser = t.houseUser ++ [m] ∧
    m .house_id = h .house_id ∧ ∃ u n, user = some u ∧ u.user_id = some n ∧ m .user_id = .int n

/-- The requests that write several rows, and what they are to leave behind. -/
inductive Composite (q : Request) (user : Option SessionUser) : (Tables → Tables → Prop) → Prop
  | addTask {owners : List JsVal} (route : q.route = .addTask)
      (listed : q.body.get "taskOwner" = .arr owners) :
      Composite q user (TaskWhole (guid q.draws) owners.length)
  | createGroup {members : List JsVal} (route : q.route = .createGroup)
      (listed : q.body.get "group_members" = .arr members) :
      Composite q user (GroupWhole members.length)
  | createHouse (route : q.route = .createHouse) : Composite q user (HouseWhole user)

/-- Whatever becomes of its statements, when all of them have settled every row is
there or the tables are what they were. -/
def AllOrNothing (w : World P) (q : Request) (whole : Tables → Tables → Prop) : Prop :=
  ∀ ls, Settles ls → (run (server P) (.arrive q :: ls) ⟨w, []⟩).pending = [] →
    (run (server P) (.arrive q :: ls) ⟨w, []⟩).world.db.tables = w.db.tables ∨
      whole w.db.tables (run (server P) (.arrive q :: ls) ⟨w, []⟩).world.db.tables

/-- The first insert is refused, or nothing is to follow it. -/
def OneInsert (w : World P) (q : Request) : Prop :=
  (∃ s, opening q = some s ∧ exec P.collate s w.db = none) ∨
    q.route = .createGroup ∧ q.body.get "group_members" = .arr []

/-- The first insert adds its row and leaves the other tables of the operation. -/
theorem opening_partial {q : Request} {user : Option SessionUser}
    {whole : Tables → Tables → Prop} (composite : Composite q user whole) :
    ∃ s, opening q = some s ∧ ∀ {db db' : Database P.collate} {r : s.Reply},
      exec P.collate s db = some (r, db') → db'.tables ≠ db.tables ∧
        (whole db.tables db'.tables →
          q.route = .createGroup ∧ q.body.get "group_members" = .arr []) := by
  cases composite with
  | addTask route =>
    refine ⟨_, by rw [opening, route], fun {db db' r} he => ?_⟩
    obtain ⟨row, -, ht⟩ := createTask_tables he
    rw [ht]
    refine ⟨fun h => by simpa using congrArg Tables.task h, fun whole => ?_⟩
    rcases whole.detail with ⟨_, more, -⟩ | ⟨_, more, -⟩ <;> simp at more
  | @createGroup members route listed =>
    refine ⟨_, by rw [opening, route], fun {db db' r} he => ?_⟩
    obtain ⟨row, ht⟩ := createGroup_tables he
    rw [ht]
    refine ⟨fun h => by simpa using congrArg Tables.group h, fun whole => ⟨route, ?_⟩⟩
    obtain ⟨g, rows, -, more, count, -⟩ := whole
    have none : rows = [] := by simpa using more
    rw [listed, List.length_eq_zero_iff.mp (count.symm.trans (by rw [none]; rfl))]
  | createHouse route =>
    refine ⟨_, by rw [opening, route], fun {db db' r} he => ?_⟩
    obtain ⟨row, ht⟩ := createHouse_tables he
    rw [ht]
    refine ⟨fun h => by simpa using congrArg Tables.house h, fun whole => ?_⟩
    obtain ⟨h, m, -, more, -⟩ := whole
    simp at more

/-- A group without members is one insert. -/
theorem createGroup_alone {w : World P} {q : Request} (route : q.route = .createGroup)
    (nobody : q.body.get "group_members" = .arr []) {ls : List (Label P)} (settles : Settles ls) :
    (run (server P) (.arrive q :: ls) ⟨w, []⟩).world.db.tables = w.db.tables ∨
      GroupWhole 0 w.db.tables (run (server P) (.arrive q :: ls) ⟨w, []⟩).world.db.tables := by
  have alone : handler P (w.context q) = .issue
      (.createGroup (q.body.get "group_name") (q.body.get "group_descr"))
      (thenRun fun _ => .done) .done := by
    simp only [handler, OneRoof.route, World.context, route, createGroup, nobody]
    rfl
  rcases single_write alone (fun r => by cases r <;> trivial) settles with same | ⟨r, he⟩
  · exact Or.inl (by rw [same])
  · have effect := exec_effect he
    generalize (run (server P) (.arrive q :: ls) ⟨w, []⟩).world.db.tables = t at effect ⊢
    generalize (run (server P) (.arrive q :: ls) ⟨w, []⟩).world.db.next = n at effect
    cases effect with
    | select reads => cases reads
    | createGroup row => exact Or.inr ⟨row, [], rfl, by simp, rfl, by simp⟩
    | setUser writes => cases writes
    | setTask writes => cases writes

/-- A request that writes several rows writes all of them or none, however its
statements fare, exactly when it has at most one insert to make. -/
theorem allOrNothing_iff (w : World P) (q : Request) {whole : Tables → Tables → Prop}
    (composite : Composite q (w.store q.sid) whole) :
    AllOrNothing w q whole ↔ OneInsert w q := by
  obtain ⟨s, opens, first⟩ := opening_partial (P := P) composite
  constructor
  · intro all
    cases he : exec P.collate s w.db with
    | none => exact Or.inl ⟨s, opens, he⟩
    | some rd =>
      obtain ⟨r, db⟩ := rd
      obtain ⟨ls, settles, quiet, hdb⟩ := opening_only opens he
      obtain ⟨changed, empty⟩ := first he
      rcases all ls settles quiet with same | whole
      · exact absurd (by rw [← hdb]; exact same) changed
      · exact Or.inr (empty (by rw [← hdb]; exact whole))
  · rintro (⟨s', opens', refused⟩ | ⟨route, nobody⟩) ls settles -
    · exact Or.inl (congrArg Database.tables
        (still_run (opening_still (c := w.context q) opens' (Or.inl refused) w.next) settles))
    · cases composite with
      | addTask route' => simp [route] at route'
      | createHouse route' => simp [route] at route'
      | createGroup _ listed =>
        rw [nobody] at listed
        cases listed
        exact createGroup_alone route nobody settles

/-- A house without a name, and a group without members. -/
theorem allOrNothing_sample :
    AllOrNothing (startUp samplePlatform).world { sid := 0, route := .createHouse }
      (HouseWhole none) ∧
    AllOrNothing (startUp samplePlatform).world
      { sid := 0, route := .createGroup, body := .obj [("group_name", .str "us"),
        ("group_descr", .str "all"), ("group_members", .arr [])] } (GroupWhole 0) :=
  ⟨(allOrNothing_iff (startUp samplePlatform).world { sid := 0, route := .createHouse }
      (.createHouse rfl)).mpr (Or.inl ⟨_, rfl, by decide +kernel⟩),
    (allOrNothing_iff (startUp samplePlatform).world
      { sid := 0, route := .createGroup, body := .obj [("group_name", .str "us"),
        ("group_descr", .str "all"), ("group_members", .arr [])] }
      (.createGroup rfl rfl)).mpr (Or.inr ⟨rfl, rfl⟩)⟩

/-- After the first user has signed up. -/
def firstUser : World samplePlatform :=
  (run (server samplePlatform)
    [.arrive { sid := 0, route := .signup, body := .obj [("email", .str "ann@x"),
      ("password", .str "pw"), ("confirmPass", .str "pw"), ("displayName", .str "Ann")] },
      .settle 0 false, .settle 0 false, .settle 0 false, .settle 0 false, .settle 0 false]
    (startUp samplePlatform)).world

/-- A bill for a user who does not exist. -/
def billForNobody : Request where
  sid := 0
  route := .addTask
  body := .obj [("taskName", .str "rent"), ("taskType", .str "Bill"),
    ("taskDueDate", .str "today"), ("amount", .num 5),
    ("taskOwner", .arr [.obj [("user_id", .num 99)]])]

/-- The task and its bill stay behind when the link to the owner is refused. -/
theorem addTask_half_written :
    (firstUser.store 0).isSome ∧
    Composite billForNobody (firstUser.store 0) (TaskWhole (guid billForNobody.draws) 1) ∧
    ¬ AllOrNothing firstUser billForNobody (TaskWhole (guid billForNobody.draws) 1) := by
  refine ⟨by decide +kernel,
    @Composite.addTask billForNobody _ [.obj [("user_id", .num 99)]] rfl rfl, fun all => ?_⟩
  rcases all [.settle 0 false, .settle 0 false, .settle 0 false]
    (fun l hl => ⟨0, false, by simpa using hl⟩) (by decide +kernel) with same | whole
  · revert same
    decide +kernel
  · obtain ⟨rows, more, count, -⟩ := whole.links
    have none : (run (server samplePlatform) [.arrive billForNobody, .settle 0 false,
        .settle 0 false, .settle 0 false] ⟨firstUser, []⟩).world.db.tables.userTask =
        firstUser.db.tables.userTask := by decide +kernel
    simp only [none] at more
    have empty : rows = [] := by simpa using more
    rw [empty] at count
    cases count

end OneRoof
