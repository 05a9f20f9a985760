import OneRoof.Feed
import OneRoof.Joining

/-!
# The whole controller

`UserController` of `feed.js` with the parts that the feed and the dialogue leave out: the
requests it starts with, one inside the callback of another, the new house, the contested task
and the form of the settings. Every page of the program runs it, and some run it twice, so a
browser holds any number of controllers. They share what the browser keeps under
`currentTask` and `currentRoomie`, and a reload ends them all.
-/

namespace OneRoof

open JsVal

/-- The callback that waits for an answer; `log` only prints it. -/
inductive Callback where
  | feed (call : Call)
  | house
  | houseDetails
  | getUsers
  | getGroups
  | user
  | createHouse
  | log

structure Outgoing where
  callback : Callback
  route : Route
  body : JsVal := .obj []

def Post.outgoing (post : Post) : Outgoing := ⟨.feed post.call, post.route, post.body⟩

/-- What stands in a field of a form: nothing before it is filled in. -/
def typed : Option String → JsVal
  | some text => .str text
  | none => .undefined

/-- The variables of the controller. `currentRoomie` is what the browser keeps under that
name, `null` where it keeps nothing. -/
structure Controller where
  feed : Feed := {}
  dialogue : Scope := {}
  currentUser : JsVal := .undefined
  ifHouseID : Option Bool := none
  houseName : JsVal := .undefined
  rentTotal : JsVal := .undefined
  houseCode : JsVal := .undefined
  userPic : JsVal := .str ""
  defaultPic : Bool := true
  responsibilityGroups : JsVal := .arr []
  email : JsVal := .undefined
  displayName : JsVal := .undefined
  gravatarUrl : JsVal := .undefined
  showPass : Bool := false
  modalHouseName : Option String := none
  modalHouseNameWarning : Bool := false
  generatedHouseCode : JsVal := .undefined
  selectedHousemate : JsVal := .undefined
  currentRoomie : JsVal := .null
  oldPass : Option String := none
  newPassword : Option String := none
  changeDisplayName : Option String := none
  newPaymentMethod : Option String := none
  changePayUsername : Option String := none
  changeMobile : Option String := none

namespace Controller

def onFeed (s : Controller) (r : Feed × List Post) : Controller × List Outgoing :=
  ({ s with feed := r.1 }, r.2.map Post.outgoing)

section Start

/-- What the controller starts with when the browser keeps a task and a housemate. -/
def start (currentTask currentRoomie : JsVal) : Controller :=
  { feed := Feed.start currentTask
    selectedHousemate := if currentRoomie matches .undefined then .undefined else currentRoomie
    currentRoomie := currentRoomie }

def startRequests (s : Controller) : List Outgoing :=
  [⟨.house, .house, .obj []⟩, ⟨.user, .feed, .obj []⟩] ++ s.feed.startPosts.map Post.outgoing

/-- `if (!user[key]) user[key] = "None set"`: in strict mode a scalar cannot be given a
property. -/
def orNoneSet (key : String) (user : JsVal) : Option JsVal := do
  let given ← user.prop key
  if given.truthy then return user
  else if user.isScalar then none
  else return user.set key (.str "None set")

/-- The details of the house and the members are asked for in the callback. -/
def houseAnswered (data : JsVal) (s : Controller) : Controller × List Outgoing :=
  match orNoneSet "mobile" data >>= orNoneSet "paymentMethod" >>= orNoneSet "paymentUsername" with
  | none => ({ s with currentUser := data }, [])
  | some user =>
    let ifHouseID := !(data.get "houseID" matches .undefined)
    let showFirstHouseQuestion := s.dialogue.showFirstHouseQuestion || !ifHouseID
    ({ s with
        currentUser := user
        ifHouseID := some ifHouseID
        dialogue := { s.dialogue with showFirstHouseQuestion } },
      [⟨.houseDetails, .houseDetails, .obj []⟩, ⟨.getUsers, .getUsers, .obj []⟩])

def houseDetailsAnswered (data : JsVal) (s : Controller) : Controller :=
  match data.elem0.bind fun house => (house.prop "house_name").map fun name => (house, name) with
  | some (house, name) =>
    { s with
      houseName := name, rentTotal := house.get "rent_total", houseCode := house.get "house_code" }
  | none => s

/-- The loop over the members gets to its end. -/
def loadsAll : JsVal → Bool
  | .arr [me, .arr members] => match me.prop "displayName" with
    | some curUserName => members.all fun i => (Feed.isCurrent curUserName i).isSome
    | none => false
  | _ => false

/-- The groups are asked for once the members are there. -/
def usersAnswered (data : JsVal) (s : Controller) : Controller × List Outgoing :=
  let s := { s with feed := s.feed.loadUsers data }
  if loadsAll data then
    match s.feed.userObj.get "user_pic" with
    | .undefined | .null =>
      ({ s with userPic := .str "./img/icon/dj.png" }, [⟨.getGroups, .getGroups, .obj []⟩])
    | userPic =>
      ({ s with userPic, defaultPic := false }, [⟨.getGroups, .getGroups, .obj []⟩])
  else (s, [])

def userAnswered (data : JsVal) (s : Controller) : Controller := match data.prop "email" with
  | some email =>
    { s with
      email, displayName := data.get "name", gravatarUrl := data.get "gravatarUrl"
      showPass := s.showPass || !(data.get "oAuth").truthy }
  | none => s

end Start

section House

def createHouse (s : Controller) : Controller × List Outgoing := match s.modalHouseName with
  | some name => (s, [⟨.createHouse, .createHouse, .obj [("setHouseName", .str name)]⟩])
  | none => ({ s with modalHouseNameWarning := true }, [])

def createHouseAnswered (data : JsVal) (s : Controller) : Controller :=
  { s with
    generatedHouseCode := data
    modalHouseNameWarning := false
    dialogue := { s.dialogue with showCreateHouse := false, showCode := true } }

def joinHouse (s : Controller) : Controller × List Outgoing :=
  ({ s with dialogue := s.dialogue.joinHouse.1 },
    s.dialogue.joinHouse.2.toList.map fun code =>
      ⟨.log, .joinHouse, .obj [("enterHouseCode", .str code)]⟩)

end House

def roommateSelect (housemate : JsVal) (s : Controller) : Controller :=
  { s with selectedHousemate := housemate, currentRoomie := housemate }

def contestTask (taskContested : Status) (s : Controller) : Controller × List Outgoing :=
  match s.feed.selectedTask.prop "task_id" with
  | some taskId => (s, [⟨.log, .updateTask,
      .obj [("taskId", taskId), ("taskStatus", taskContested.js)]⟩])
  | none => (s, [])

/-- A part of the form of the settings: the field that has to be filled in, what the record of
the user calls it when it is changed there too, and the request. -/
structure Setting where
  given : Option String
  recorded : Bool
  route : Route
  body : JsVal

def settings (s : Controller) : List Setting := [
  ⟨s.changeDisplayName, true, .updateDispl, .obj [("displayName", typed s.changeDisplayName)]⟩,
  ⟨s.newPassword, false, .updatePass,
    .obj [("newPass", typed s.newPassword), ("oldPass", typed s.oldPass)]⟩,
  ⟨s.newPaymentMethod, true, .updatePaymentMethod,
    .obj [("newMethod", typed s.newPaymentMethod)]⟩,
  ⟨s.changePayUsername, true, .updatePaymentUser,
    .obj [("newUsername", typed s.changePayUsername)]⟩,
  ⟨s.changeMobile, true, .updateMobile, .obj [("newMobile", typed s.changeMobile)]⟩]

/-- The requests of the parts that are filled in, and whether the function gets to the end.
While the record of the user is not there, changing it throws. -/
def sendSettings (userObj : JsVal) : List Setting → List Outgoing × Bool
  | [] => ([], true)
  | part :: parts =>
    if (typed part.given).truthy then
      if part.recorded && userObj.isScalar then ([], false)
      else
        let rest := sendSettings userObj parts
        (⟨.log, part.route, part.body⟩ :: rest.1, rest.2)
    else sendSettings userObj parts

/-- At its end the page is loaded again, so that nothing is left of what it has changed. -/
def updateData (s : Controller) : List Outgoing × Bool := sendSettings s.feed.userObj s.settings

/-- The fields of the forms. -/
inductive Form where
  | commentDescription
  | groupName
  | groupDescr
  | taskName
  | taskType
  | taskDueDate
  | taskDescription
  | billAmount
  | chorePriority
  | modalHouseName
  | modalHouseCode
  | oldPass
  | newPassword
  | changeDisplayName
  | newPaymentMethod
  | changePayUsername
  | changeMobile

def fill (form : Form) (text : Option String) (s : Controller) : Controller := match form with
  | .commentDescription => { s with feed := { s.feed with commentDescription := typed text } }
  | .groupName => { s with feed := { s.feed with groupName := typed text } }
  | .groupDescr => { s with feed := { s.feed with groupDescr := typed text } }
  | .taskName => { s with feed := { s.feed with taskName := typed text } }
  | .taskType => { s with feed := { s.feed with taskType := typed text } }
  | .taskDueDate => { s with feed := { s.feed with taskDueDate := typed text } }
  | .taskDescription => { s with feed := { s.feed with taskDescription := typed text } }
  | .billAmount => { s with feed := { s.feed with billAmount := typed text } }
  | .chorePriority => { s with feed := { s.feed with chorePriority := typed text } }
  | .modalHouseName => { s with modalHouseName := text }
  | .modalHouseCode => { s with dialogue := { s.dialogue with modalHouseCode := text } }
  | .oldPass => { s with oldPass := text }
  | .newPassword => { s with newPassword := text }
  | .changeDisplayName => { s with changeDisplayName := text }
  | .newPaymentMethod => { s with newPaymentMethod := text }
  | .changePayUsername => { s with changePayUsername := text }
  | .changeMobile => { s with changeMobile := text }

/-- What the templates offer. What is chosen from a list is given by its place there. -/
inductive Gesture where
  | showEveryone
  | showHistory
  | taskSelect (i : Nat)
  | completeTask
  | contestTask (taskContested : Status)
  | submitComment
  | deleteComment (i : Nat)
  | addAssignee (i : Nat)
  | removeAssignee (i : Nat)
  | addTask
  | addAssigneeToGroup (i : Nat)
  | createGroup
  | chooseGroup (i : Nat)
  | joinGroup
  | roommateSelect (i : Nat)
  | confirmExistingHouse
  | noHouse
  | backToModal1
  | createHouse
  | joinHouse
  | oneOverview
  | fill (form : Form) (text : Option String)

/-- Nothing happens where the list has nothing at that place. -/
def chosen (list : List JsVal) (i : Nat) (s : Controller)
    (f : JsVal → Controller × List Outgoing) : Controller × List Outgoing :=
  match list[i]? with
  | some v => f v
  | none => (s, [])

def gesture (g : Gesture) (s : Controller) : Controller × List Outgoing := match g with
  | .showEveryone => s.onFeed (s.feed.click .showEveryone)
  | .showHistory => s.onFeed (s.feed.click .showHistory)
  | .taskSelect i => chosen s.feed.tasks.items i s fun task =>
      s.onFeed (s.feed.click (.taskSelect task))
  | .completeTask => s.onFeed (s.feed.click (.completeTask (s.feed.selectedTask.get "task_id")))
  | .contestTask taskContested => s.contestTask taskContested
  | .submitComment => s.onFeed (s.feed.click .submitComment)
  | .deleteComment i => chosen s.feed.comments.items i s fun comment =>
      s.onFeed (s.feed.click (.deleteComment comment))
  | .addAssignee i => chosen s.feed.housemates i s fun housemate =>
      s.onFeed ({ s.feed with currentHousemate := housemate }.addAssignee, [])
  | .removeAssignee i => s.onFeed (s.feed.removeAssignee i, [])
  | .addTask => s.onFeed (s.feed.click .addTask)
  | .addAssigneeToGroup i => chosen s.feed.housemates i s fun housemate =>
      s.onFeed ({ s.feed with currentHousemate := housemate }.click (.addAssigneeToGroup housemate))
  | .createGroup => s.onFeed (s.feed.click .createGroup)
  | .chooseGroup i => chosen s.responsibilityGroups.items i s fun item =>
      s.onFeed (s.feed.click (.chooseGroup (item.get "group_id")))
  | .joinGroup => s.onFeed (s.feed.click .joinGroup)
  | .roommateSelect i => chosen s.feed.housemates i s fun housemate =>
      (s.roommateSelect housemate, [])
  | .confirmExistingHouse => ({ s with dialogue := s.dialogue.confirmExistingHouse }, [])
  | .noHouse => ({ s with dialogue := s.dialogue.noHouse }, [])
  | .backToModal1 => ({ s with dialogue := s.dialogue.backToModal1 }, [])
  | .createHouse => s.createHouse
  | .joinHouse => s.joinHouse
  | .oneOverview => ({ s with dialogue := s.dialogue.oneOverview }, [])
  | .fill form text => (s.fill form text, [])

/-- What runs when a request has been answered with success. -/
def answered (callback : Callback) (data : JsVal) (s : Controller) :
    Controller × List Outgoing := match callback with
  | .feed call => s.onFeed (s.feed.answered call data)
  | .house => s.houseAnswered data
  | .houseDetails => (s.houseDetailsAnswered data, [])
  | .getUsers => s.usersAnswered data
  | .getGroups => ({ s with responsibilityGroups := data }, [])
  | .user => (s.userAnswered data, [])
  | .createHouse => (s.createHouseAnswered data, [])
  | .log => (s, [])

end Controller

/-- The controllers that a browser has run; those from `live` on are still there. -/
structure Browser where
  controllers : List Controller := []
  live : Nat := 0

/-- A controller starts with what an earlier one has kept last, or with nothing kept; the
user does something; the page is left. -/
inductive Deed where
  | load (keeper : Option Nat)
  | gesture (n : Nat) (g : Controller.Gesture)
  | updateData (n : Nat)
  | leave

namespace Browser

/-- What the browser keeps when this controller has been the last to write. -/
def kept (keeper : Option Nat) (b : Browser) : JsVal × JsVal :=
  match keeper.bind fun n => b.controllers[n]? with
  | some s => (s.feed.currentTask, s.currentRoomie)
  | none => (.null, .null)

/-- A controller acts while it is there. Its requests carry its number. -/
def act (n : Nat) (f : Controller → Controller × List Outgoing) (b : Browser) :
    Browser × List (Nat × Outgoing) :=
  match if b.live ≤ n then b.controllers[n]? else none with
  | some s => ({ b with controllers := b.controllers.set n (f s).1 }, (f s).2.map (n, ·))
  | none => (b, [])

def load (keeper : Option Nat) (b : Browser) : Browser × List (Nat × Outgoing) :=
  let s := Controller.start (b.kept keeper).1 (b.kept keeper).2
  ({ b with controllers := b.controllers ++ [s] },
    s.startRequests.map (b.controllers.length, ·))

def leave (b : Browser) : Browser := { b with live := b.controllers.length }

/-- The page is loaded again when the function gets to its end. -/
def updateData (n : Nat) (b : Browser) : Browser × List (Nat × Outgoing) :=
  match if b.live ≤ n then b.controllers[n]? else none with
  | some s => (if s.updateData.2 then b.leave else b, s.updateData.1.map (n, ·))
  | none => (b, [])

def input (d : Deed) (b : Browser) : Browser × List (Nat × Outgoing) := match d with
  | .load keeper => b.load keeper
  | .gesture n g => b.act n fun s => s.gesture g
  | .updateData n => b.updateData n
  | .leave => (b.leave, [])

def answered (request : Nat × Outgoing) (data : JsVal) (b : Browser) :
    Browser × List (Nat × Outgoing) :=
  b.act request.1 fun s => s.answered request.2.callback data

end Browser

end OneRoof
