import OneRoof.Maria

/-!
# What each statement does to the tables

One relation says, statement by statement, what a completed statement has done:
nothing, one row more, or an update or a removal by a condition. Everything
that is proved about runs goes through it, so `exec` is opened here only.
-/

namespace OneRoof

open Sql

/-- The column an update of `tblUSER` names, the value it writes and the key. -/
def Stmt.setsUser : Stmt → Option (UserCol × JsVal × Option Int)
  | .updateProfPic user_id filename => some (.user_pic, .str filename, user_id)
  | .updateUserDisplayName displayName id => some (.displayName, displayName, id)
  | .updateUserPass newPassword id => some (.hash_pass, .str newPassword, id)
  | .updateUserPaymentMethod meth id => some (.payment_method, meth, id)
  | .updateUserPaymentUsername username id => some (.payment_username, username, id)
  | .updateMobile mobile id => some (.phone_num, mobile, id)
  | _ => none

def Stmt.isSelect : Stmt → Bool
  | .getUser _ | .getUserFB _ | .getHouse _ | .getHouseWithCode _ | .getHouseWithID _
  | .getUserGroups _ | .getUsersInHouse _ | .getHouseGroups _ | .getHouseCode _
  | .getTasksForUser _ _ | .getComment _ => true
  | _ => false

/-- The `SET` list and the condition of an update of `tblTASK`. -/
def Stmt.setsTask : Stmt → Option (List (TaskCol × Rhs TaskCol) × Cond TaskCol)
  | .removeTask completedDate id => do
    let q ← whereEq (column "tblTASK") .task_id id.escape
    return ([(.task_archived_date, .lit (.str completedDate)),
      (.task_status, .lit (.str "complete"))], q)
  | .updateTask taskStatus taskId => do
    let status ← setTo (column "tblTASK") .task_status taskStatus.escape
    let q ← whereEq (column "tblTASK") .task_id taskId.escape
    return (status, q)
  | _ => none

section Effect

variable (collate : String → String)

/-- The row a comment becomes. -/
def commentRow (n : Nat) (commentDescr creatorID taskID : JsVal) : Option (Row CommentCol) :=
  newRow collate "tblCOMMENT" (some (.comment_id, n))
    [(.comment_descr, commentDescr), (.comment_owner_id, creatorID), (.task_id, taskID)]

def userTaskRow (n : Nat) (taskID : String) (taskOwnerID : JsVal) (taskCreatorID : Option Int) :
    Option (Row UserTaskCol) :=
  newRow collate "tblUSER_TASK" (some (.user_task_id, n))
    [(.task_id, .str taskID), (.task_owner_id, taskOwnerID),
      (.task_creator_id, .ofInt taskCreatorID)]

def houseUserRow (n : Nat) (houseId userId : Option Int) : Option (Row HouseUserCol) :=
  newRow collate "tblHOUSE_USER" (some (.house_user_id, n))
    [(.house_id, .ofInt houseId), (.user_id, .ofInt userId)]

def taskRow (task : NewTask) : Option (Row TaskCol) :=
  newRow collate "tblTASK" none [(.task_id, .str task.taskID), (.task_name, task.taskName),
    (.task_time, .str task.taskTime), (.task_type, task.taskType),
    (.task_status, .str task.taskStatus), (.task_due_date, task.taskDueDate),
    (.task_descr, task.taskDescription)]

def billRow (taskID : String) (amount : Int) : Option (Row BillCol) :=
  newRow collate "tblBILL" none [(.task_id, .str taskID), (.bill_amount, .num amount)]

def choreRow (taskID : String) (priority : JsVal) : Option (Row ChoreCol) :=
  newRow collate "tblCHORE" none [(.task_id, .str taskID), (.priority, priority)]

/-- The tables and counters before and after a completed statement. -/
inductive Effect (t : Tables) (n : Counters) : Stmt → Tables → Counters → Prop
  | select {s : Stmt} (reads : s.isSelect = true) : Effect t n s t n
  | setUser {s : Stmt} {c : UserCol} {v : JsVal} {id : Option Int}
      {sets : List (UserCol × Rhs UserCol)} (writes : s.setsUser = some (c, v, id))
      (parsed : setTo (column "tblUSER") c v.escape = some sets) :
      Effect t n s { t with user := update collate (.eq .user_id (idLit id)) sets t.user } n
  | createUser {user : NewUser} {row : Row UserCol}
      (filled : insertUser collate user n.user = some row) :
      Effect t n (.createUser user) { t with user := t.user ++ [row] }
        { n with user := n.user + 1 }
  | createHouse {houseName : JsVal} {rentAmount : Int} {houseCode : String} (row : Row HouseCol) :
      Effect t n (.createHouse houseName rentAmount houseCode)
        { t with house := t.house ++ [row] } { n with house := n.house + 1 }
  | createGroup {groupName groupDescr : JsVal} (row : Row GroupCol) :
      Effect t n (.createGroup groupName groupDescr) { t with group := t.group ++ [row] }
        { n with group := n.group + 1 }
  | addUserToHouse {houseId userId : Option Int} {row : Row HouseUserCol}
      (filled : houseUserRow collate n.houseUser houseId userId = some row) :
      Effect t n (.addUserToHouse houseId userId) { t with houseUser := t.houseUser ++ [row] }
        { n with houseUser := n.houseUser + 1 }
  | addUserToGroup {group user : JsVal} (row : Row UserGroupCol) :
      Effect t n (.addUserToGroup group user) { t with userGroups := t.userGroups ++ [row] }
        { n with userGroups := n.userGroups + 1 }
  | createTask {task : NewTask} (row : Row TaskCol) :
      Effect t n (.createTask task) { t with task := t.task ++ [row] } n
  | updateUserTaskTable {taskID : String} {taskOwnerID : JsVal} {taskCreatorID : Option Int}
      {row : Row UserTaskCol}
      (filled : userTaskRow collate n.userTask taskID taskOwnerID taskCreatorID = some row) :
      Effect t n (.updateUserTaskTable taskID taskOwnerID taskCreatorID)
        { t with userTask := t.userTask ++ [row] } { n with userTask := n.userTask + 1 }
  | updateBillTable {taskID : String} {amount : Option Int} (row : Row BillCol) :
      Effect t n (.updateBillTable taskID amount) { t with bill := t.bill ++ [row] } n
  | updateChoreTable {taskID : String} {priority : JsVal} (row : Row ChoreCol) :
      Effect t n (.updateChoreTable taskID priority) { t with chore := t.chore ++ [row] } n
  | removeUserHouse {houseID user_id : Option Int} (stays : Row HouseUserCol → Bool) :
      Effect t n (.removeUserHouse houseID user_id)
        { t with houseUser := t.houseUser.filter stays } n
  | setTask {s : Stmt} {sets : List (TaskCol × Rhs TaskCol)} {q : Cond TaskCol}
      (writes : s.setsTask = some (sets, q)) :
      Effect t n s { t with task := update collate q sets t.task } n
  | addComment {commentDescr creatorID taskID : JsVal} {stamp : Int} {row : Row CommentCol}
      (filled : commentRow collate n.comment commentDescr creatorID taskID = some row) :
      Effect t n (.addComment commentDescr creatorID taskID stamp)
        { t with comment := t.comment ++ [Function.update row .comment_time (.int stamp)] }
        { n with comment := n.comment + 1 }
  | deleteComment {id v : JsVal} {q : Cond CommentCol} (given : id.bare = some v)
      (parsed : whereEq (column "tblCOMMENT") .comment_id v.escape = some q) :
      Effect t n (.deleteComment id) { t with comment := delete collate q t.comment } n

variable {collate}
variable {db db' : Database collate}

theorem bind_commit {α : Type} {t : Tables} {n : Counters} {p r : α}
    (h : ((commit collate t n).bind fun db => some (p, db)) = some (r, db')) :
    db'.tables = t ∧ db'.next = n ∧ p = r := by
  obtain ⟨d, hd, h⟩ := Option.bind_eq_some_iff.mp h
  cases h
  exact ⟨(commit_eq_some hd).1, (commit_eq_some hd).2, rfl⟩

theorem selectUser_same {c : UserCol} {v : JsVal} {rows : List (Row UserCol)}
    (h : selectUser collate c v db = some (rows, db')) : db' = db := by
  obtain ⟨w, -, h⟩ := Option.bind_eq_some_iff.mp h
  obtain ⟨q, -, h⟩ := Option.bind_eq_some_iff.mp h
  cases h
  rfl

theorem setUser_tables {c : UserCol} {v : JsVal} {id : Option Int} {r : Packet}
    (h : setUser collate c v id db = some (r, db')) :
    ∃ sets, setTo (column "tblUSER") c v.escape = some sets ∧
      db'.tables = { db.tables with
        user := update collate (.eq .user_id (idLit id)) sets db.tables.user } ∧
      db'.next = db.next := by
  obtain ⟨sets, hs, h⟩ := Option.bind_eq_some_iff.mp h
  exact ⟨sets, hs, (bind_commit h).1, (bind_commit h).2.1⟩

theorem setUser_effect {s : Stmt} {c : UserCol} {v : JsVal} {id : Option Int} {r : Packet}
    (writes : s.setsUser = some (c, v, id)) (h : setUser collate c v id db = some (r, db')) :
    Effect collate db.tables db.next s db'.tables db'.next := by
  obtain ⟨sets, parsed, ht, hn⟩ := setUser_tables h
  rw [ht, hn]
  exact .setUser writes parsed

theorem exec_effect {s : Stmt} {r : s.Reply} (h : exec collate s db = some (r, db')) :
    Effect collate db.tables db.next s db'.tables db'.next := by
  cases s with
  | getUser email => rw [selectUser_same h]; exact .select rfl
  | getUserFB profileId => rw [selectUser_same h]; exact .select rfl
  | updateProfPic user_id filename => exact setUser_effect rfl h
  | createUser user =>
    obtain ⟨row, filled, h⟩ := Option.bind_eq_some_iff.mp h
    rw [(bind_commit h).1, (bind_commit h).2.1]
    exact .createUser filled
  | updateUserDisplayName displayName id => exact setUser_effect rfl h
  | updateUserPass newPassword id => exact setUser_effect rfl h
  | updateUserPaymentMethod meth id => exact setUser_effect rfl h
  | updateUserPaymentUsername username id => exact setUser_effect rfl h
  | updateMobile mobile id => exact setUser_effect rfl h
  | getHouse userId => cases h; exact .select rfl
  | getHouseWithCode houseCode =>
    obtain ⟨q, -, h⟩ := Option.bind_eq_some_iff.mp h
    cases h
    exact .select rfl
  | getHouseWithID houseID => cases h; exact .select rfl
  | getUserGroups id => cases h; exact .select rfl
  | getUsersInHouse houseID =>
    obtain ⟨i, -, h⟩ := Option.map_eq_some_iff.mp h
    cases h
    exact .select rfl
  | createHouse houseName rentAmount houseCode =>
    obtain ⟨row, -, h⟩ := Option.bind_eq_some_iff.mp h
    rw [(bind_commit h).1, (bind_commit h).2.1]
    exact .createHouse row
  | createGroup groupName groupDescr =>
    obtain ⟨row, -, h⟩ := Option.bind_eq_some_iff.mp h
    rw [(bind_commit h).1, (bind_commit h).2.1]
    exact .createGroup row
  | getHouseGroups houseID => cases h; exact .select rfl
  | getHouseCode houseId => cases h; exact .select rfl
  | addUserToHouse houseId userId =>
    obtain ⟨row, filled, h⟩ := Option.bind_eq_some_iff.mp h
    rw [(bind_commit h).1, (bind_commit h).2.1]
    exact .addUserToHouse filled
  | addUserToGroup group user =>
    obtain ⟨row, -, h⟩ := Option.bind_eq_some_iff.mp h
    rw [(bind_commit h).1, (bind_commit h).2.1]
    exact .addUserToGroup row
  | getTasksForUser email status =>
    obtain ⟨q, -, h⟩ := Option.bind_eq_some_iff.mp h
    obtain ⟨q', -, h⟩ := Option.bind_eq_some_iff.mp h
    cases h
    exact .select rfl
  | createTask task =>
    obtain ⟨row, -, h⟩ := Option.bind_eq_some_iff.mp h
    rw [(bind_commit h).1, (bind_commit h).2.1]
    exact .createTask row
  | updateUserTaskTable taskID taskOwnerID taskCreatorID =>
    obtain ⟨row, filled, h⟩ := Option.bind_eq_some_iff.mp h
    rw [(bind_commit h).1, (bind_commit h).2.1]
    exact .updateUserTaskTable filled
  | updateBillTable taskID convertedAmount =>
    obtain ⟨amount, -, h⟩ := Option.bind_eq_some_iff.mp h
    obtain ⟨row, -, h⟩ := Option.bind_eq_some_iff.mp h
    rw [(bind_commit h).1, (bind_commit h).2.1]
    exact .updateBillTable row
  | updateChoreTable taskID priority =>
    obtain ⟨row, -, h⟩ := Option.bind_eq_some_iff.mp h
    rw [(bind_commit h).1, (bind_commit h).2.1]
    exact .updateChoreTable row
  | removeUserHouse houseID user_id =>
    rw [(bind_commit h).1, (bind_commit h).2.1]
    exact .removeUserHouse _
  | removeTask completedDate id =>
    obtain ⟨q, hq, h⟩ := Option.bind_eq_some_iff.mp h
    rw [(bind_commit h).1, (bind_commit h).2.1]
    exact .setTask (by simp [Stmt.setsTask, hq])
  | updateTask taskStatus taskId =>
    obtain ⟨status, hs, h⟩ := Option.bind_eq_some_iff.mp h
    obtain ⟨q, hq, h⟩ := Option.bind_eq_some_iff.mp h
    rw [(bind_commit h).1, (bind_commit h).2.1]
    exact .setTask (by simp [Stmt.setsTask, hs, hq])
  | addComment commentDescr creatorID taskID stamp =>
    obtain ⟨row, filled, h⟩ := Option.bind_eq_some_iff.mp h
    rw [(bind_commit h).1, (bind_commit h).2.1]
    exact .addComment filled
  | getComment task_id =>
    obtain ⟨v, -, h⟩ := Option.bind_eq_some_iff.mp h
    obtain ⟨q, -, h⟩ := Option.bind_eq_some_iff.mp h
    cases h
    exact .select rfl
  | deleteComment id =>
    obtain ⟨v, given, h⟩ := Option.bind_eq_some_iff.mp h
    obtain ⟨q, parsed, h⟩ := Option.bind_eq_some_iff.mp h
    rw [(bind_commit h).1, (bind_commit h).2.1]
    exact .deleteComment given parsed

theorem exec_select {s : Stmt} (reads : s.isSelect = true)
    {r : s.Reply} (he : exec collate s db = some (r, db')) : db' = db := by
  have effect := exec_effect he
  generalize ht : db'.tables = t at effect
  generalize hn : db'.next = n at effect
  cases effect with
  | select => exact Database.ext ht hn
  | setUser writes => cases s <;> simp_all [Stmt.isSelect, Stmt.setsUser]
  | setTask writes => cases s <;> simp_all [Stmt.isSelect, Stmt.setsTask]
  | _ => cases reads

theorem createTask_tables {task : NewTask} {r : Packet}
    (h : exec collate (.createTask task) db = some (r, db')) :
    ∃ row, taskRow collate task = some row ∧
      db'.tables = { db.tables with task := db.tables.task ++ [row] } := by
  obtain ⟨row, filled, h⟩ := Option.bind_eq_some_iff.mp h
  exact ⟨row, filled, (bind_commit h).1⟩

theorem createHouse_tables {houseName : JsVal} {rentAmount : Int} {houseCode : String} {r : Packet}
    (h : exec collate (.createHouse houseName rentAmount houseCode) db = some (r, db')) :
    ∃ row, db'.tables = { db.tables with house := db.tables.house ++ [row] } := by
  obtain ⟨row, -, h⟩ := Option.bind_eq_some_iff.mp h
  exact ⟨row, (bind_commit h).1⟩

theorem createGroup_tables {groupName groupDescr : JsVal} {r : Packet}
    (h : exec collate (.createGroup groupName groupDescr) db = some (r, db')) :
    ∃ row, db'.tables = { db.tables with group := db.tables.group ++ [row] } := by
  obtain ⟨row, -, h⟩ := Option.bind_eq_some_iff.mp h
  exact ⟨row, (bind_commit h).1⟩

theorem exec_createTask {task : NewTask} {r : Packet}
    (h : exec collate (.createTask task) db = some (r, db')) :
    ∃ row, taskRow collate task = some row ∧ db'.tables.task = db.tables.task ++ [row] := by
  obtain ⟨row, filled, ht⟩ := createTask_tables h
  exact ⟨row, filled, by rw [ht]⟩

theorem addUserToHouse_row {houseId userId : Option Int} {r : Packet}
    (h : exec collate (.addUserToHouse houseId userId) db = some (r, db')) :
    ∃ row, houseUserRow collate db.next.houseUser houseId userId = some row ∧
      db'.tables.houseUser = db.tables.houseUser ++ [row] := by
  obtain ⟨row, filled, h⟩ := Option.bind_eq_some_iff.mp h
  exact ⟨row, filled, by rw [(bind_commit h).1]⟩

theorem exec_addUserToHouse {n : Nat} {houseId userId : Option Int} {row : Row HouseUserCol}
    (filled : houseUserRow collate n houseId userId = some row) (db : Database collate)
    {db' : Database collate} (counter : db.next.houseUser = n) (commits : commit collate
      { db.tables with houseUser := db.tables.houseUser ++ [row] }
      { db.next with houseUser := db.next.houseUser + 1 } = some db') :
    ∃ r, exec collate (.addUserToHouse houseId userId) db = some (r, db') := by
  refine ⟨⟨1, db.next.houseUser⟩, ?_⟩
  rw [← counter, houseUserRow] at filled
  simp only [exec, filled, Option.bind_eq_bind, Option.bind_some, commits]
  rfl

theorem exec_updateBillTable {taskID : String} {convertedAmount : Option Int} {r : Packet}
    (h : exec collate (.updateBillTable taskID convertedAmount) db = some (r, db')) :
    ∃ amount row, convertedAmount = some amount ∧ billRow collate taskID amount = some row ∧
      db'.tables.bill = db.tables.bill ++ [row] := by
  obtain ⟨amount, number, h⟩ := Option.bind_eq_some_iff.mp h
  obtain ⟨row, filled, h⟩ := Option.bind_eq_some_iff.mp h
  exact ⟨amount, row, number, filled, by rw [(bind_commit h).1]⟩

theorem exec_updateChoreTable {taskID : String} {priority : JsVal} {r : Packet}
    (h : exec collate (.updateChoreTable taskID priority) db = some (r, db')) :
    ∃ row, choreRow collate taskID priority = some row ∧
      db'.tables.chore = db.tables.chore ++ [row] := by
  obtain ⟨row, filled, h⟩ := Option.bind_eq_some_iff.mp h
  exact ⟨row, filled, by rw [(bind_commit h).1]⟩

theorem exec_setsUser {s : Stmt} {c : UserCol} {v : JsVal} {id : Option Int}
    {sets : List (UserCol × Rhs UserCol)} (writes : s.setsUser = some (c, v, id))
    (parsed : setTo (column "tblUSER") c v.escape = some sets) (db : Database collate)
    {db' : Database collate} (commits : commit collate { db.tables with
      user := update collate (.eq .user_id (idLit id)) sets db.tables.user } db.next = some db') :
    ∃ r, exec collate s db = some (r, db') := by
  have set : setUser collate c v id db = some
      (⟨(select collate (.eq .user_id (idLit id)) db.tables.user).length, 0⟩, db') := by
    simp only [setUser, parsed, Option.bind_eq_bind, Option.bind_some, commits]
    rfl
  cases s <;> cases writes <;> exact ⟨_, set⟩

/-- The rows of `tblUSER` may change where they are referred to by nothing. -/
theorem integrity_users {t : Tables} (sound : Integrity collate t) {users : List (Row UserCol)}
    (typed : Typed users) (ids : users.map (· .user_id) = t.user.map (· .user_id)) :
    Integrity collate { t with user := users } :=
  { sound with
    user_typed := typed
    user_key := sound.user_key.of_keys ids
    houseUser_user := sound.houseUser_user.of_keys ids
    userGroups_user := sound.userGroups_user.of_keys ids
    userTask_owner := sound.userTask_owner.of_keys ids
    userTask_creator := sound.userTask_creator.of_keys ids
    comment_owner := sound.comment_owner.of_keys ids }

/-- What becomes of a row when a column is set by user id. -/
def written (collate : String → String) (c : UserCol) (v : Value) (id : Option Int)
    (row : Row UserCol) : Row UserCol :=
  if eqLit collate (row .user_id) (idLit id) = some true then
    Function.update row c (store c v)
  else row

theorem update_written (c : UserCol) (l : Lit) (id : Option Int) (rows : List (Row UserCol)) :
    update collate (.eq .user_id (idLit id)) [(c, .lit l)] rows =
      rows.map (written collate c l.value id) := by
  refine List.map_congr_left fun row _ => ?_
  simp only [written, Cond.hits_iff, Cond.eval]
  rfl

theorem written_other {c d : UserCol} (other : d ≠ c) (v : Value) (id : Option Int)
    (row : Row UserCol) : written collate c v id row d = row d := by
  unfold written
  split
  · exact Function.update_of_ne other _ _
  · rfl

theorem fits_written {row : Row UserCol} (fit : ∀ d, fits d (row d) = true) (c : UserCol)
    (v : Value) (id : Option Int) (d : UserCol) : fits d (written collate c v id row d) = true := by
  have undated : Columns.type c ≠ .timestamp := by cases c <;> decide
  unfold written
  split
  · by_cases same : d = c
    · subst same
      rw [Function.update_self]
      exact fits_store undated v
    · rw [Function.update_of_ne same]
      exact fit d
  · exact fit d

theorem Stmt.setsUser_id {s : Stmt} {v : JsVal} {id : Option Int} :
    s.setsUser ≠ some (.user_id, v, id) := by
  cases s <;> nofun

/-- A scalar is always written, to the rows with the id. -/
theorem exec_setsUser_scalar {s : Stmt} {c : UserCol} {v : JsVal} {id : Option Int}
    (writes : s.setsUser = some (c, v, id)) (scalar : v.isScalar = true) (db : Database collate) :
    ∃ r db', exec collate s db = some (r, db') ∧ db'.next = db.next ∧
      db'.tables = { db.tables with
        user := db.tables.user.map (written collate c v.lit.value id) } := by
  have other : UserCol.user_id ≠ c := by
    rintro rfl
    exact Stmt.setsUser_id writes
  have ids : (db.tables.user.map (written collate c v.lit.value id)).map (· .user_id) =
      db.tables.user.map (· .user_id) := by
    rw [List.map_map]
    exact List.map_congr_left fun row _ => written_other other _ _ row
  have typed : Typed (db.tables.user.map (written collate c v.lit.value id)) := by
    intro row' hr' d _
    obtain ⟨row, hr, rfl⟩ := List.mem_map.mp hr'
    exact fits_written (fun d => db.sound.user_typed row hr d (Columns.mem_all d)) _ _ _ d
  have sound := integrity_users db.sound typed ids
  obtain ⟨r, he⟩ := exec_setsUser writes (setTo_scalar c scalar) db
    (by rw [update_written]; exact commit_of_sound db.next sound)
  exact ⟨r, _, he, rfl, rfl⟩

/-- The rows that `removeUserHouse` deletes. -/
def leaves (collate : String → String) (houseID user_id : Option Int) (r : Row HouseUserCol) :
    Bool :=
  eqLit collate (r .house_id) (idLit houseID) = some true ∧
    eqLit collate (r .user_id) (idLit user_id) = some true

theorem integrity_leaves {t : Tables} (sound : Integrity collate t)
    (stays : Row HouseUserCol → Bool) :
    Integrity collate { t with houseUser := t.houseUser.filter stays } :=
  have sub : t.houseUser.filter stays ⊆ t.houseUser := fun _ hr => (List.mem_filter.mp hr).1
  { sound with
    houseUser_typed := fun r hr => sound.houseUser_typed r (sub hr)
    houseUser_key := sound.houseUser_key.filter _
    houseUser_house := fun r hr => sound.houseUser_house r (sub hr)
    houseUser_user := fun r hr => sound.houseUser_user r (sub hr) }

/-- Leaving always succeeds, also where it deletes nothing. -/
theorem exec_removeUserHouse (houseID user_id : Option Int) (db : Database collate) :
    ∃ r db', exec collate (.removeUserHouse houseID user_id) db = some (r, db') ∧
      db'.tables = { db.tables with
        houseUser := db.tables.houseUser.filter fun r => !leaves collate houseID user_id r } := by
  have sound := integrity_leaves db.sound fun r => !leaves collate houseID user_id r
  refine ⟨(⟨(db.tables.houseUser.filter (leaves collate houseID user_id)).length, 0⟩ : Packet),
    ⟨_, db.next, sound⟩, ?_, rfl⟩
  exact Option.bind_eq_some_iff.mpr ⟨_, commit_of_sound db.next sound, rfl⟩

section NewRow

variable {κ : Type} [DecidableEq κ] [Columns κ] {table : String} {key : Option (κ × Nat)}
variable {values : List (κ × JsVal)} {row : Row κ}

/-- A scalar is stored in the column it is listed for. -/
theorem newRow_cell (filled : newRow collate table key values = some row)
    (once : (values.map Prod.fst).Nodup) {c : κ} {v : JsVal} (mem : (c, v) ∈ values)
    (scalar : v.isScalar = true) : row c = store c v.lit.value := by
  obtain ⟨sets, parsed, filled⟩ := Option.bind_eq_some_iff.mp filled
  rw [fill_eq_assign filled]
  exact assign_cell (by rw [valuesOf_names parsed]; exact once) (valuesOf_mem parsed mem scalar) _

theorem newRow_key {c : κ} {n : Nat} (filled : newRow collate table (some (c, n)) values = some row)
    (unlisted : c ∉ values.map Prod.fst) : row c = .int n := by
  obtain ⟨sets, parsed, filled⟩ := Option.bind_eq_some_iff.mp filled
  rw [fill_eq_assign filled, assign_frame (valuesOf_unlisted parsed unlisted)]
  exact Function.update_self _ _ _

theorem newRow_blank (filled : newRow collate table none values = some row) {c : κ}
    (unlisted : c ∉ values.map Prod.fst) : row c = blank c := by
  obtain ⟨sets, parsed, filled⟩ := Option.bind_eq_some_iff.mp filled
  rw [fill_eq_assign filled, assign_frame (valuesOf_unlisted parsed unlisted)]

/-- A scalar that is listed for a column that is NOT NULL was not NULL. -/
theorem newRow_given (filled : newRow collate table key values = some row) {c : κ} {v : JsVal}
    (mem : (c, v) ∈ values) (scalar : v.isScalar = true) (given : Columns.nullable c = false) :
    v.lit ≠ .null := by
  obtain ⟨sets, parsed, filled⟩ := Option.bind_eq_some_iff.mp filled
  exact fill_given filled (valuesOf_mem parsed mem scalar) given

/-- Scalars that are not NULL where NULL is forbidden make a row. -/
theorem newRow_some (collate : String → String) (table : String) (key : Option (κ × Nat))
    (scalars : ∀ p ∈ values, p.2.isScalar = true)
    (given : ∀ p ∈ values, p.2.lit = .null → Columns.nullable p.1 = true) :
    ∃ row, newRow collate table key values = some row := by
  have sets : ∀ p ∈ values.map fun p => (p.1, (.lit p.2.lit : Rhs κ)), ∃ l, p.2 = .lit l ∧
      (l = .null → Columns.nullable p.1 = true) := by
    intro p mem
    obtain ⟨p', listed, rfl⟩ := List.mem_map.mp mem
    exact ⟨p'.2.lit, rfl, given p' listed⟩
  simp only [newRow, valuesOf_scalars scalars, Option.bind_eq_bind, Option.bind_some]
  exact fill_some collate sets _

/-- A row of a table without timestamps fits it when it is written over a blank one. -/
theorem newRow_fits (undated : ∀ c : κ, Columns.type c ≠ .timestamp)
    (filled : newRow collate table none values = some row) (c : κ) : fits c (row c) = true := by
  obtain ⟨sets, -, filled⟩ := Option.bind_eq_some_iff.mp filled
  rw [fill_eq_assign filled]
  refine fits_assign collate undated sets (fun d => ?_) c
  have stored := fits_store (undated d) .null
  rwa [store, ← blank] at stored

end NewRow

/-- The house a new member is put in. -/
theorem houseUserRow_house {n : Nat} {houseId : Int} {userId : Option Int}
    {row : Row HouseUserCol}
    (filled : houseUserRow collate n (some houseId) userId = some row) :
    row .house_id = .int (clip houseId) :=
  newRow_cell filled (c := .house_id) (v := .num houseId) (by simp) (by simp [JsVal.ofInt]) rfl

end Effect

end OneRoof
