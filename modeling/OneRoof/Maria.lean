import OneRoof.Mysql
import OneRoof.Schema

/-!
# The statements of `models/maria.js`

One constructor for each statement that a function of `bankData` sends, with the
values it puts in for the placeholders, and what the server does with it.
Values that can only come from a row or from the session are numbers or missing;
values that come from a request body are arbitrary.

A reply of `none` is a rejected promise: the statement was not parsed, a value
was refused, or a constraint of the schema was broken.
-/

namespace OneRoof

open Sql

/-- The object `createUser` takes: its two branches look for `facebook_id`. -/
inductive NewUser where
  | localUser (email displayName hashPass paymentMethod paymentUsername mobile : JsVal)
  | facebookUser (facebook_email displayName facebook_token facebook_id : JsVal)

structure NewTask where
  taskID : String
  taskName : JsVal
  taskTime : String
  taskType : JsVal
  taskStatus : String
  taskDueDate : JsVal
  taskDescription : JsVal

inductive Stmt where
  | getUser (email : JsVal)
  | getUserFB (profileId : JsVal)
  | updateProfPic (user_id : Option Int) (filename : String)
  | createUser (user : NewUser)
  | updateUserDisplayName (displayName : JsVal) (id : Option Int)
  | updateUserPass (newPassword : String) (id : Option Int)
  | updateUserPaymentMethod (meth : JsVal) (id : Option Int)
  | updateUserPaymentUsername (username : JsVal) (id : Option Int)
  | updateMobile (mobile : JsVal) (id : Option Int)
  | getHouse (userId : Option Int)
  | getHouseWithCode (houseCode : JsVal)
  | getHouseWithID (houseID : Option Int)
  | getUserGroups (id : Option Int)
  | getUsersInHouse (houseID : Option Int)
  | createHouse (houseName : JsVal) (rentAmount : Int) (houseCode : String)
  | createGroup (groupName groupDescr : JsVal)
  | getHouseGroups (houseID : Option Int)
  | getHouseCode (houseId : Option Int)
  | addUserToHouse (houseId userId : Option Int)
  | addUserToGroup (group user : JsVal)
  | getTasksForUser (email status : JsVal)
  | createTask (task : NewTask)
  | updateUserTaskTable (taskID : String) (taskOwnerID : JsVal) (taskCreatorID : Option Int)
  | updateBillTable (taskID : String) (convertedAmount : Option Int)
  | updateChoreTable (taskID : String) (priority : JsVal)
  | removeUserHouse (houseID user_id : Option Int)
  | removeTask (completedDate : String) (id : JsVal)
  | updateTask (taskStatus taskId : JsVal)
  | addComment (commentDescr creatorID taskID : JsVal) (stamp : Int)
  | getComment (task_id : JsVal)
  | deleteComment (id : JsVal)

/-- What a write is answered with. -/
structure Packet where
  affectedRows : Nat
  insertId : Nat

def Stmt.Reply : Stmt → Type
  | .getUser _ => List (Row UserCol)
  | .getUserFB _ => List (Row UserCol)
  | .getHouse _ => List (Row HouseUserCol)
  | .getHouseWithCode _ => List (Row HouseCol)
  | .getHouseWithID _ => List (Row HouseCol)
  | .getUserGroups _ => List (Row UserGroupCol × Row GroupCol)
  | .getUsersInHouse _ => List (Row UserCol)
  | .getHouseGroups _ =>
    List (Row UserGroupCol × Row UserCol × Row HouseUserCol × Row GroupCol)
  | .getHouseCode _ => List (Row HouseCol)
  | .getTasksForUser _ _ => List (Row UserCol × Row UserTaskCol × Row TaskCol)
  | .getComment _ => List (Row CommentCol)
  | _ => Packet

/-- A key the code takes from a row or from the session. -/
def idLit : Option Int → Lit
  | some n => .num n
  | none => .null

/-- The columns in scope of `getTasksForUser`, by the alias of their table. -/
inductive TaskJoinCol where
  | u (c : UserCol)
  | ut (c : UserTaskCol)
  | t (c : TaskCol)
  deriving DecidableEq

def taskJoinRow (u : Row UserCol) (ut : Row UserTaskCol) (t : Row TaskCol) : Row TaskJoinCol
  | .u c => u c
  | .ut c => ut c
  | .t c => t c

/-- A name without an alias has to belong to one of the three tables only. -/
def taskJoinColumn (key : String) : Option TaskJoinCol :=
  match nameParts key with
  | [c] => match columnNamed (κ := UserCol) c, columnNamed (κ := UserTaskCol) c,
      columnNamed (κ := TaskCol) c with
    | some c, none, none => some (.u c)
    | none, some c, none => some (.ut c)
    | none, none, some c => some (.t c)
    | _, _, _ => none
  | [a, c] =>
    if a = "u" then (columnNamed c).map .u
    else if a = "ut" then (columnNamed c).map .ut
    else if a = "t" then (columnNamed c).map .t
    else none
  | _ => none

section Exec

variable (collate : String → String)

/-- The new row of an `INSERT`; `key` is its `AUTO_INCREMENT` column, if any. -/
def newRow {κ : Type} [DecidableEq κ] [Columns κ] (table : String) (key : Option (κ × Nat))
    (values : List (κ × JsVal)) : Option (Row κ) := do
  let sets ← valuesOf (column table) values
  fill collate sets (match key with
    | some (c, n) => Function.update blank c (.int n)
    | none => blank)

/-- `select * from tblUSER where c = ?`, the value passed without a list. -/
def selectUser (c : UserCol) (v : JsVal) (db : Database collate) :
    Option (List (Row UserCol) × Database collate) := do
  let v ← v.bare
  let q ← whereEq (column "tblUSER") c v.escape
  return (select collate q db.tables.user, db)

/-- `update tblUSER set c = ? where user_id = ?`. -/
def setUser (c : UserCol) (v : JsVal) (id : Option Int) (db : Database collate) :
    Option (Packet × Database collate) := do
  let sets ← setTo (column "tblUSER") c v.escape
  let q : Cond UserCol := .eq .user_id (idLit id)
  let db' ← commit collate
    { db.tables with user := update collate q sets db.tables.user } db.next
  return (⟨(select collate q db.tables.user).length, 0⟩, db')

def insertUser (user : NewUser) (n : Nat) : Option (Row UserCol) :=
  match user with
  | .facebookUser facebook_email displayName facebook_token facebook_id =>
    newRow collate "tblUSER" (some (.user_id, n)) [(.facebook_email, facebook_email),
      (.displayName, displayName), (.facebook_name, displayName),
      (.facebook_token, facebook_token), (.facebook_id, facebook_id)]
  | .localUser email displayName hashPass paymentMethod paymentUsername mobile =>
    newRow collate "tblUSER" (some (.user_id, n)) [(.email, email),
      (.displayName, displayName), (.hash_pass, hashPass), (.payment_method, paymentMethod),
      (.payment_username, paymentUsername), (.phone_num, mobile)]

def selectHouse (q : Cond HouseCol) (db : Database collate) :
    List (Row HouseCol) × Database collate :=
  (select collate q db.tables.house, db)

def usersInHouse (houseID : Int) (t : Tables) : List (Row UserCol) :=
  (t.user.flatMap fun u => (t.houseUser.filter fun hu =>
    eqValue collate (u .user_id) (hu .user_id) = some true ∧
      eqLit collate (hu .house_id) (.num houseID) = some true).map fun _ => u).dedup

def houseGroups (houseID : Option Int) (t : Tables) :
    List (Row UserGroupCol × Row UserCol × Row HouseUserCol × Row GroupCol) :=
  t.userGroups.flatMap fun ug => t.user.flatMap fun u => t.houseUser.flatMap fun hu =>
    (t.group.filter fun g =>
      eqValue collate (u .user_id) (ug .user_id) = some true ∧
      eqValue collate (hu .user_id) (u .user_id) = some true ∧
      eqValue collate (g .group_id) (ug .group_id) = some true ∧
      eqLit collate (hu .house_id) (idLit houseID) = some true).map fun g => (ug, u, hu, g)

def userGroups (id : Option Int) (t : Tables) : List (Row UserGroupCol × Row GroupCol) :=
  t.userGroups.flatMap fun ug => (t.group.filter fun g =>
    eqValue collate (ug .group_id) (g .group_id) = some true ∧
      eqLit collate (ug .user_id) (idLit id) = some true).map fun g => (ug, g)

def tasksForUser (q q' : Cond TaskJoinCol) (t : Tables) :
    List (Row UserCol × Row UserTaskCol × Row TaskCol) :=
  t.user.flatMap fun u => t.userTask.flatMap fun ut =>
    (t.task.filter fun k =>
      eqValue collate (u .user_id) (ut .task_owner_id) = some true ∧
      eqValue collate (k .task_id) (ut .task_id) = some true ∧
      q.hits collate (taskJoinRow u ut k) ∧ q'.hits collate (taskJoinRow u ut k)).map
      fun k => (u, ut, k)

/-- One statement, run atomically. -/
def exec : (s : Stmt) → Database collate → Option (s.Reply × Database collate)
  | .getUser email, db => selectUser collate .email email db
  | .getUserFB profileId, db => selectUser collate .facebook_id profileId db
  | .updateProfPic user_id filename, db =>
    setUser collate .user_pic (.str filename) user_id db
  | .createUser user, db => do
    let row ← insertUser collate user db.next.user
    let db' ← commit collate { db.tables with user := db.tables.user ++ [row] }
      { db.next with user := db.next.user + 1 }
    return (⟨1, db.next.user⟩, db')
  | .updateUserDisplayName displayName id, db =>
    setUser collate .displayName displayName id db
  | .updateUserPass newPassword id, db =>
    setUser collate .hash_pass (.str newPassword) id db
  | .updateUserPaymentMethod meth id, db => setUser collate .payment_method meth id db
  | .updateUserPaymentUsername username id, db =>
    setUser collate .payment_username username id db
  | .updateMobile mobile id, db => setUser collate .phone_num mobile id db
  | .getHouse userId, db =>
    some (select collate (.eq .user_id (idLit userId)) db.tables.houseUser, db)
  | .getHouseWithCode houseCode, db => do
    let q ← whereEq (column "tblHOUSE") .house_code houseCode.escape
    return selectHouse collate q db
  | .getHouseWithID houseID, db =>
    some (selectHouse collate (.eq .house_id (idLit houseID)) db)
  | .getUserGroups id, db => some (userGroups collate id db.tables, db)
  | .getUsersInHouse houseID, db =>
    houseID.map (fun h => (usersInHouse collate h db.tables, db))
  | .createHouse houseName rentAmount houseCode, db => do
    let row ← newRow collate "tblHOUSE" (some (.house_id, db.next.house))
      [(.house_name, houseName), (.rent_total, .num rentAmount), (.house_code, .str houseCode)]
    let db' ← commit collate { db.tables with house := db.tables.house ++ [row] }
      { db.next with house := db.next.house + 1 }
    return (⟨1, db.next.house⟩, db')
  | .createGroup groupName groupDescr, db => do
    let row ← newRow collate "tblGROUP" (some (.group_id, db.next.group))
      [(.group_name, groupName), (.group_descr, groupDescr)]
    let db' ← commit collate { db.tables with group := db.tables.group ++ [row] }
      { db.next with group := db.next.group + 1 }
    return (⟨1, db.next.group⟩, db')
  | .getHouseGroups houseID, db => some (houseGroups collate houseID db.tables, db)
  | .getHouseCode houseId, db =>
    some (selectHouse collate (.eq .house_id (idLit houseId)) db)
  | .addUserToHouse houseId userId, db => do
    let row ← newRow collate "tblHOUSE_USER" (some (.house_user_id, db.next.houseUser))
      [(.house_id, .ofInt houseId), (.user_id, .ofInt userId)]
    let db' ← commit collate { db.tables with houseUser := db.tables.houseUser ++ [row] }
      { db.next with houseUser := db.next.houseUser + 1 }
    return (⟨1, db.next.houseUser⟩, db')
  | .addUserToGroup group user, db => do
    let row ← newRow collate "tblUSER_GROUPS" (some (.user_group_id, db.next.userGroups))
      [(.group_id, group), (.user_id, user)]
    let db' ← commit collate { db.tables with userGroups := db.tables.userGroups ++ [row] }
      { db.next with userGroups := db.next.userGroups + 1 }
    return (⟨1, db.next.userGroups⟩, db')
  | .getTasksForUser email status, db => do
    let q ← whereEq taskJoinColumn (.u .email) email.escape
    let q' ← whereEq taskJoinColumn (.t .task_status) status.escape
    return (tasksForUser collate q q' db.tables, db)
  | .createTask task, db => do
    let row ← newRow collate "tblTASK" none [(.task_id, .str task.taskID),
      (.task_name, task.taskName), (.task_time, .str task.taskTime),
      (.task_type, task.taskType), (.task_status, .str task.taskStatus),
      (.task_due_date, task.taskDueDate), (.task_descr, task.taskDescription)]
    let db' ← commit collate { db.tables with task := db.tables.task ++ [row] } db.next
    return (⟨1, 0⟩, db')
  | .updateUserTaskTable taskID taskOwnerID taskCreatorID, db => do
    let row ← newRow collate "tblUSER_TASK" (some (.user_task_id, db.next.userTask))
      [(.task_id, .str taskID), (.task_owner_id, taskOwnerID),
        (.task_creator_id, .ofInt taskCreatorID)]
    let db' ← commit collate { db.tables with userTask := db.tables.userTask ++ [row] }
      { db.next with userTask := db.next.userTask + 1 }
    return (⟨1, db.next.userTask⟩, db')
  | .updateBillTable taskID convertedAmount, db => do
    let amount ← convertedAmount
    let row ← newRow collate "tblBILL" none [(.task_id, .str taskID), (.bill_amount, .num amount)]
    let db' ← commit collate { db.tables with bill := db.tables.bill ++ [row] } db.next
    return (⟨1, 0⟩, db')
  | .updateChoreTable taskID priority, db => do
    let row ← newRow collate "tblCHORE" none [(.task_id, .str taskID), (.priority, priority)]
    let db' ← commit collate { db.tables with chore := db.tables.chore ++ [row] } db.next
    return (⟨1, 0⟩, db')
  | .removeUserHouse houseID user_id, db => do
    let leaves : Row HouseUserCol → Bool := fun r =>
      eqLit collate (r .house_id) (idLit houseID) = some true ∧
        eqLit collate (r .user_id) (idLit user_id) = some true
    let db' ← commit collate
      { db.tables with houseUser := db.tables.houseUser.filter (fun r => !leaves r) } db.next
    return (⟨(db.tables.houseUser.filter leaves).length, 0⟩, db')
  | .removeTask completedDate id, db => do
    let archived ← setTo (column "tblTASK") .task_archived_date (JsVal.str completedDate).escape
    let status ← setTo (column "tblTASK") .task_status (JsVal.str "complete").escape
    let q ← whereEq (column "tblTASK") .task_id id.escape
    let db' ← commit collate
      { db.tables with task := update collate q (archived ++ status) db.tables.task } db.next
    return (⟨(select collate q db.tables.task).length, 0⟩, db')
  | .updateTask taskStatus taskId, db => do
    let status ← setTo (column "tblTASK") .task_status taskStatus.escape
    let q ← whereEq (column "tblTASK") .task_id taskId.escape
    let db' ← commit collate
      { db.tables with task := update collate q status db.tables.task } db.next
    return (⟨(select collate q db.tables.task).length, 0⟩, db')
  | .addComment commentDescr creatorID taskID stamp, db => do
    let row ← newRow collate "tblCOMMENT" (some (.comment_id, db.next.comment))
      [(.comment_descr, commentDescr), (.comment_owner_id, creatorID), (.task_id, taskID)]
    let db' ← commit collate
      { db.tables with
        comment := db.tables.comment ++ [Function.update row .comment_time (.int stamp)] }
      { db.next with comment := db.next.comment + 1 }
    return (⟨1, db.next.comment⟩, db')
  | .getComment task_id, db => do
    let v ← task_id.bare
    let q ← whereEq (column "tblCOMMENT") .task_id v.escape
    return (select collate q db.tables.comment, db)
  | .deleteComment id, db => do
    let v ← id.bare
    let q ← whereEq (column "tblCOMMENT") .comment_id v.escape
    let db' ← commit collate
      { db.tables with comment := delete collate q db.tables.comment } db.next
    return (⟨(select collate q db.tables.comment).length, 0⟩, db')

end Exec

end OneRoof
