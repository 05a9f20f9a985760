import OneRoof.Http

/-!
# The handlers of `controllers/routes.js`

Each handler is given the request and the user of its session. A promise chain
is written as the callback of the statement it waits for; what a callback throws
goes to the `catch` of its chain, if there is one, and is lost otherwise. What
the synchronous part throws is answered by Express.
-/

namespace OneRoof

open Sql Async.Prog Prog

/-- `req.user` as `res.json` sends it. -/
def userJs : Option SessionUser → JsVal
  | some u => u.js
  | none => .undefined

/-- The first row of a reply in a JSON array: `undefined` becomes `null`. -/
def firstJs {κ : Type} [Columns κ] (rows : List (Row κ)) : JsVal :=
  match rows.head? with
  | some r => rowJs r
  | none => .null

def rowsJs {κ : Type} [Columns κ] (rows : List (Row κ)) : JsVal := .arr (rows.map rowJs)

def groupsJs (rows : List (Row UserGroupCol × Row GroupCol)) : JsVal :=
  .arr (rows.map fun r => .obj (joined (fieldsOf r.1) (fieldsOf r.2)))

def houseGroupsJs
    (rows : List (Row UserGroupCol × Row UserCol × Row HouseUserCol × Row GroupCol)) : JsVal :=
  .arr (rows.map fun r => .obj (joined (joined (joined (fieldsOf r.1) (fieldsOf r.2.1))
    (fieldsOf r.2.2.1)) (fieldsOf r.2.2.2)))

def taskRowsJs (rows : List (Row UserCol × Row UserTaskCol × Row TaskCol)) : JsVal :=
  .arr (rows.map fun r =>
    .obj (joined (joined (fieldsOf r.1) (fieldsOf r.2.1)) (fieldsOf r.2.2)))

section Handlers

variable (P : Platform) (req : Request) (user : Option SessionUser)

/-- The new picture is in the session even when the file could not be renamed. -/
def upload : Prog :=
  withUser user fun u => attempt req.file fun filename =>
    let user_pic := "./uploads/" ++ filename ++ ".png"
    let u' := { u with user_pic := .str user_pic }
    if req.renamed then
      start (.updateProfPic u.user_id user_pic)
        (send (.redirect "/app.html#/settings") (some u'))
    else send (.status 500 "Internal Server Error") (some u')

def signout : Prog := send (.redirect "/") none

def uploads : Prog :=
  attempt (getUpload req.files req.cwd req.url) fun img => send (.content img.2) user

def settings : Prog :=
  withUser user fun u => query (.getHouse u.user_id) <| thenRun fun rows =>
    match rows.head? with
    | some row => query (.getHouseCode (cellInt (row .house_id))) <| thenRun fun rs =>
        attempt rs.head? fun h =>
          let u' := { u with houseID := cellInt (h .house_id) }
          send (.json (.arr [u'.js, rowJs h])) (some u')
    | none => send (.json u.js) (some u)

def feed : Prog := send (.json (userJs user)) user

def house : Prog :=
  withUser user fun u => query (.getHouse u.user_id) <| thenRun fun response =>
    match response.head? with
    | none => send (.json u.js) (some u)
    | some row =>
      let u' := { u with houseID := cellInt (row .house_id) }
      send (.json u'.js) (some u')

def houseDetails : Prog :=
  withUser user fun u => query (.getHouseWithID u.houseID) <| thenRun fun response =>
    send (.json (.arr [firstJs response])) (some u)

def profile : Prog :=
  withUser user fun u => bankGetUser u.requestedProfile <| thenRun fun response =>
    send (.json (.arr [u.js, firstJs response])) (some u)

def loadProfile : Prog :=
  withUser user fun u =>
    let u' := { u with requestedProfile := req.body.get "loadEmail" }
    send (.json u'.js) (some u')

/-- A user without a house gets no answer. -/
def getUsers : Prog :=
  withUser user fun u => match u.houseID with
    | some h => query (.getUsersInHouse (some h)) <| thenRun fun rows =>
        send (.json (.arr [u.js, rowsJs rows])) (some u)
    | none => done

def joinGroup : Prog :=
  withUser user fun u =>
    start (.addUserToGroup (req.body.get "groupId") (.ofInt u.user_id)) done

def updateDispl : Prog :=
  withUser user fun u => bankGetUser u.email <| thenCatch
    (fun rows =>
      if rows.length ≠ 0 then
        let u' := { u with displayName := req.body.get "displayName" }
        start (.updateUserDisplayName (req.body.get "displayName") u.user_id)
          (send (.json u'.js) (some u'))
      else send (.status 403 "You're not authorized to do that") (some u))
    (send (.status 404 "User not found") (some u))

def createHouse : Prog :=
  let code := houseCode req.draws
  query (.createHouse (req.body.get "setHouseName") 100 code) <| thenCatch
    (fun rows => withUser user fun u =>
      start (.addUserToHouse (some rows.insertId) u.user_id) (send (.json (.str code)) user))
    (send (.status 404 "You done broke the machien") user)

/-- The loop prints `user_id` before it uses it. -/
def createGroup : Prog :=
  query (.createGroup (req.body.get "group_name") (req.body.get "group_descr")) <|
    thenRun fun rows => attempt (req.body.get "group_members").loop fun members =>
      startEach (fun m => do
          let user_id ← m.prop "user_id"
          let _ ← user_id.toStr
          return .addUserToGroup (.num rows.insertId) user_id)
        members.broken done members.items

/-- The user who is let in gets no answer, so the session keeps its old house. -/
def joinHouse : Prog :=
  query (.getHouseWithCode (req.body.get "enterHouseCode")) <| thenCatch
    (fun rows => match rows.head? with
      | some row => withUser user fun u =>
          start (.addUserToHouse (cellInt (row .house_id)) u.user_id) done
      | none => send (.status 403 ("Hey Man, that house doesn't exist. " ++
          "Maybe create a new house or double check your code!")) user)
    done

def getGroups : Prog :=
  withUser user fun u => query (.getHouseGroups u.houseID) <| thenRun fun response =>
    send (.json (houseGroupsJs response)) (some u)

def viewUserGroups : Prog :=
  withUser user fun u => bankGetUser u.requestedProfile <| thenRun fun response =>
    attempt response.head? fun row =>
      query (.getUserGroups (cellInt (row .user_id))) <| thenRun fun groups =>
        send (.json (groupsJs groups)) (some u)

def getUserGroups : Prog :=
  withUser user fun u => bankGetUser u.email <| thenRun fun _ =>
    query (.getUserGroups u.user_id) <| thenRun fun groups =>
      send (.json (groupsJs groups)) (some u)

/-- `bCrypt.compareSync`, which throws unless both arguments are strings. -/
def isValidPassword (hash_pass : Value) (password : JsVal) : Option Bool :=
  match password, hash_pass with
  | .str p, .text h => P.compareSync p h
  | _, _ => none

/-- `createHash` of `maria.js` hashes whatever string its argument becomes. -/
def updatePass : Prog :=
  withUser user fun u => bankGetUser u.email <| thenCatch
    (fun rows => match rows.head? with
      | some row =>
        act (.compareSync (row .hash_pass)) fun _ =>
          attempt (isValidPassword P (row .hash_pass) (req.body.get "oldPass")) fun valid =>
            if valid then
              attempt (req.body.get "newPass").toStr fun pass =>
                start (.updateUserPass (P.hashSync pass req.salt) u.user_id)
                  (send (.json u.js) (some u))
            else send (.status 401 "Wrong password") (some u)
      | none => send (.status 403 "You're not authorized to do that") (some u))
    (send (.status 400 "Error grabbing user information") (some u))

/-- The shape of the three handlers that update one column and answer only when
they fail. -/
def updateColumn (stmt : Option Int → Stmt) : Prog :=
  withUser user fun u => bankGetUser u.email <| thenCatch
    (fun rows =>
      if rows.length ≠ 0 then start (stmt u.user_id) done
      else send (.status 403 "You're not authorized to do that") (some u))
    (send (.status 400 "Error grabbing user information") (some u))

def updatePaymentMethod : Prog :=
  updateColumn user (.updateUserPaymentMethod (req.body.get "newMethod"))

def updatePaymentUser : Prog :=
  updateColumn user (.updateUserPaymentUsername (req.body.get "newUsername"))

def updateMobile : Prog := updateColumn user (.updateMobile (req.body.get "newMobile"))

/-- The arguments of one `getTasksForUser`, which are printed before it is sent. -/
def taskArguments (status v : JsVal) : Option (JsVal × JsVal) := do
  let _ ← v.toStr
  let email ← v.prop "email"
  let _ ← email.toStr
  let _ ← status.toStr
  return (email, status)

/-- One query for each user; the answers are gathered as they come, and sent
when the last one is there. -/
def gatherTasks (total : Nat) : List (JsVal × JsVal) → Prog
  | [] => done
  | (email, status) :: rest =>
    issue (.getTasksForUser email status)
      (thenRun fun rows => act (.push (taskRowsJs rows) total) fun complete =>
        if complete then act (.sendGathered user) fun ok => if ok then done else throw
        else done)
      (gatherTasks total rest)

/-- When the mapping throws, the queries sent before are not waited for. -/
def tasks : Prog :=
  attempt (req.body.get "users").toStr fun _ => match req.body.get "users" with
    | .arr items =>
      match items.mapM (taskArguments (req.body.get "status")) with
      | some [] => send (.json (.arr [])) user
      | some queries => gatherTasks user queries.length queries
      | none => startEach (fun v => (taskArguments (req.body.get "status") v).map
          fun a => .getTasksForUser a.1 a.2) true done items
    | _ => throw

/-- The status is not passed, so it is NULL. -/
def viewTasks : Prog :=
  withUser user fun u => attempt u.email.toStr fun _ => attempt u.requestedProfile.toStr fun _ =>
    query (.getTasksForUser u.requestedProfile .undefined) <| thenCatch
      (fun rows => send (.json (taskRowsJs rows)) (some u))
      (send (.status 404 "Tasks query failed") (some u))

/-- The account and transaction routes call functions `bankData` does not have. -/
def leftOver : Prog := throw

def leaveHouse : Prog :=
  withUser user fun u => query (.removeUserHouse u.houseID u.user_id) <| thenRun fun _ =>
    let u' := { u with houseID := none }
    send (.json u'.js) (some u')

def addTaskOwners (taskID : String) : Prog :=
  attempt (req.body.get "taskOwner").loop fun taskOwners =>
    startEach (fun o => do
        let taskOwnerID ← o.prop "user_id"
        let u ← user
        return .updateUserTaskTable taskID taskOwnerID u.user_id)
      taskOwners.broken done taskOwners.items

/-- For a chore a second answer is attempted when its row is there; Express
refuses it and the inner `catch` takes the error. -/
def addTaskDetail (taskID : String) : Prog :=
  attempt ((req.body.get "taskType").looseEq (.str "Chore")) fun chore =>
    if chore then
      issue (.updateChoreTable taskID (req.body.get "priority"))
        (thenCatch (fun _ => send (.json .undefined) user) done)
        (send (.json .undefined) user)
    else
      attempt (req.body.get "amount").parseInt fun convertedAmount =>
        start (.updateBillTable taskID convertedAmount) (send (.json .undefined) user)

def addTask : Prog :=
  let generatedTaskID := guid req.draws
  let task : NewTask :=
    { taskID := generatedTaskID, taskName := req.body.get "taskName", taskTime := req.clock,
      taskType := req.body.get "taskType", taskStatus := "incomplete",
      taskDueDate := req.body.get "taskDueDate",
      taskDescription := req.body.get "taskDescription" }
  query (.createTask task) <| thenCatch
    (fun _ => (addTaskOwners req user generatedTaskID).andThen
      (addTaskDetail req user generatedTaskID))
    (send (.status 404 "Something's fucky") user)

def getComment : Prog :=
  if (req.body.get "task_id").truthy then
    query (.getComment (req.body.get "task_id")) <| thenRun fun response =>
      send (.json (rowsJs response)) user
  else done

/-- The creator is written into the body, over what the client may have put there. -/
def addComment : Prog :=
  attempt req.body.toStr fun _ => withUser user fun u =>
    let data := req.body.set "creatorID" (.ofInt u.user_id)
    query (.addComment (data.get "commentDescr") (data.get "creatorID") (data.get "taskID")
      req.stamp) <| thenRun fun response => send (.json (packetJs response)) user

def deleteComment : Prog :=
  query (.deleteComment (req.body.get "comment_id")) <| thenRun fun response =>
    send (.json (packetJs response)) user

def deleteTask : Prog :=
  attempt (req.body.get "id").toStr fun _ =>
    query (.removeTask req.clock (req.body.get "id")) <| thenRun fun response =>
      send (.json (packetJs response)) user

/-- No answer is sent, whatever the statement does. -/
def updateTask : Prog :=
  start (.updateTask (req.body.get "taskStatus") (req.body.get "taskId")) done

def uploadProfile : Prog := done

end Handlers

end OneRoof
