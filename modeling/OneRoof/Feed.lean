import OneRoof.Routes

/-!
# The controller of the feed page

The variables of `feed.js` and what its handlers do to them. A handler may post requests;
what runs when one is answered is named by a `Call`, and gets the body of the answer. An
answer with an error status changes none of the variables. Where a callback throws, what it
has done before stays.
-/

namespace OneRoof

namespace JsVal

/-- The elements of an array. -/
def items : JsVal → List JsVal
  | arr items => items
  | _ => []

/-- `v[0]`. -/
def elem0 : JsVal → Option JsVal
  | undefined => none
  | null => none
  | arr items => some (items.head?.getD undefined)
  | str s => some ((s.toList.head?.map fun c => str (String.singleton c)).getD undefined)
  | obj fields => some ((obj fields).get "0")
  | _ => some undefined

/-- `v.length`. -/
def length : JsVal → Option JsVal
  | undefined => none
  | null => none
  | arr items => some (num items.length)
  | str s => some (num s.length)
  | obj fields => some ((obj fields).get "length")
  | _ => some undefined

/-- `v > 0`. -/
def positive (v : JsVal) : Option Bool := v.toNumber.map fun q => q.any (0 < ·)

/-- `data[0].length > 0`. -/
def firstFilled (data : JsVal) : Option Bool := do
  let list ← data.elem0
  let n ← list.length
  n.positive

/-- `data[0].length != 0`. -/
def firstUnlikeZero (data : JsVal) : Option Bool := do
  let list ← data.elem0
  let n ← list.length
  let zero ← n.looseEq (.num 0)
  return !zero

/-- `list.push(v)`: only an array has the method. -/
def push : JsVal → JsVal → Option JsVal
  | arr items, v => some (arr (items ++ [v]))
  | _, _ => none

/-- The body of a request: what is neither an array nor an object reaches the handlers as an
object without properties. -/
def payload : JsVal → JsVal
  | arr items => arr items
  | obj fields => obj fields
  | _ => obj []

end JsVal

open JsVal

inductive Status where
  | incomplete
  | complete
  deriving DecidableEq

def Status.js : Status → JsVal
  | .incomplete => .str "incomplete"
  | .complete => .str "complete"

/-- The callback that waits for an answer. -/
inductive Call where
  | startUp
  | initialTasks
  | showPersonal
  | addTask
  | addedTask
  | completeTask
  | completedTask
  | showHistory
  | showEveryone
  | getComment
  | addComment
  | deleteComment
  | createGroup
  | joinGroup
  deriving DecidableEq

structure Post where
  call : Call
  route : Route
  body : JsVal

/-- The variables of the controller. `currentTask` is what the browser keeps under that name,
`null` where it keeps nothing; `currentHousemate` is the choice as it is parsed. -/
structure Feed where
  housemates : List JsVal := []
  pureHousemates : List JsVal := []
  assignees : List JsVal := []
  currentHousemate : JsVal := .undefined
  userObj : JsVal := .num 0
  statusType : Status := .incomplete
  tasks : JsVal := .undefined
  selectedTask : JsVal := .str ""
  currentTask : JsVal := .null
  comments : JsVal := .undefined
  commentDescription : JsVal := .undefined
  currResponsibilityGroup : List JsVal := []
  groupName : JsVal := .undefined
  groupDescr : JsVal := .undefined
  joinIntoGroup : JsVal := .undefined
  taskName : JsVal := .undefined
  taskType : JsVal := .undefined
  taskDueDate : JsVal := .undefined
  taskDescription : JsVal := .undefined
  billAmount : JsVal := .undefined
  chorePriority : JsVal := .undefined

namespace Feed

/-- POST /api/tasks, as every part of the page sends it. -/
def getTasks (call : Call) (users : List JsVal) (s : Feed) : Post :=
  ⟨call, .tasks, .obj [("users", .arr users), ("status", s.statusType.js)]⟩

/-- What the controller starts with: the task that was selected last is pulled from the
browser unless the text `undefined` is kept there. -/
def start (currentTask : JsVal) : Feed :=
  if currentTask matches .undefined then { currentTask := currentTask }
  else { currentTask := currentTask, selectedTask := currentTask }

/-- The requests for tasks that the controller sends by itself. -/
def startPosts (s : Feed) : List Post :=
  [s.getTasks .startUp [s.userObj], s.getTasks .initialTasks s.pureHousemates]

section Housemates

/-- `curUserName == i.displayName`. -/
def isCurrent (curUserName i : JsVal) : Option Bool :=
  (i.prop "displayName").bind fun name => curUserName.looseEq name

/-- The loop over the members of the house. -/
def loadEach (curUserName : JsVal) : List JsVal → Feed → Feed
  | [], s => s
  | i :: members, s => match isCurrent curUserName i with
    | none => s
    | some current => loadEach curUserName members
      { s with
        userObj := if current then i else s.userObj
        pureHousemates := s.pureHousemates ++ [i]
        housemates := s.housemates ++ [i] }

/-- The answer to GET /api/getUsers. -/
def loadUsers : JsVal → Feed → Feed
  | .arr [me, .arr members], s => match me.prop "displayName" with
    | some curUserName => loadEach curUserName members s
    | none => s
  | _, s => s

/-- `housemate.email == temp.email`. -/
def sameEmail (temp housemate : JsVal) : Bool :=
  (housemate.get "email").looseEq (temp.get "email") = some true

/-- What `index` ends with: the loop goes on after a match. -/
def lastIndex (test : JsVal → Bool) : List JsVal → Option Nat
  | [] => none
  | v :: vs => match lastIndex test vs with
    | some i => some (i + 1)
    | none => if test v then some 0 else none

section Loop

variable {test : JsVal → Bool} {vs : List JsVal}

/-- The loop finds nothing where nothing passes. -/
theorem lastIndex_eq_none : lastIndex test vs = none ↔ ∀ v ∈ vs, test v = false := by
  induction vs with
  | nil => simp [lastIndex]
  | cons v vs ih =>
    simp only [lastIndex, List.forall_mem_cons]
    cases found : lastIndex test vs with
    | none => cases passes : test v <;> simp [← ih, found]
    | some i => simp [← ih, found]

/-- What it finds passes, and nothing behind it does. -/
theorem lastIndex_eq_some {i : Nat} : lastIndex test vs = some i ↔
    (∃ v, vs[i]? = some v ∧ test v = true) ∧ ∀ w ∈ vs.drop (i + 1), test w = false := by
  induction vs generalizing i with
  | nil => simp [lastIndex]
  | cons v vs ih =>
    simp only [lastIndex, List.drop_succ_cons]
    cases found : lastIndex test vs with
    | none =>
      have nothing := lastIndex_eq_none.mp found
      cases i with
      | zero =>
        cases passes : test v with
        | false => simp [passes]
        | true => simpa [passes] using nothing
      | succ i =>
        have miss : (if test v then some 0 else none) ≠ some (i + 1) := by
          split <;> simp
        refine iff_of_false miss ?_
        rintro ⟨⟨w, hw, passes⟩, -⟩
        have mem : w ∈ vs := List.mem_of_getElem? hw
        rw [nothing w mem] at passes
        cases passes
    | some j =>
      obtain ⟨⟨w, hw, passes⟩, after⟩ := ih.mp found
      cases i with
      | zero =>
        refine iff_of_false (by simp) ?_
        rintro ⟨-, none⟩
        rw [List.drop_zero] at none
        rw [none w (List.mem_of_getElem? hw)] at passes
        cases passes
      | succ i => rw [Option.some.injEq, Nat.succ_inj, ← Option.some.injEq, ← found, ih]; rfl

end Loop

def addAssignee (s : Feed) : Feed :=
  let temp := s.currentHousemate
  match lastIndex (sameEmail temp) s.housemates with
  | some index =>
    { s with housemates := s.housemates.eraseIdx index, assignees := s.assignees ++ [temp] }
  | none => s

/-- The elements of `assignees` are different objects, so that `indexOf` finds the one that
was clicked. -/
def removeAssignee (index : Nat) (s : Feed) : Feed :=
  match s.assignees[index]? with
  | some value =>
    { s with assignees := s.assignees.eraseIdx index, housemates := s.housemates ++ [value] }
  | none => s

end Housemates

section Tasks

def taskSelect (task : JsVal) (s : Feed) : Feed × List Post :=
  ({ s with selectedTask := task, currentTask := task },
    [⟨.getComment, .getComment, task.payload⟩])

/-- A task that is selected by a callback is assigned once more. -/
def selectFirst (task : JsVal) (s : Feed) : Feed × List Post :=
  ({ (s.taskSelect task).1 with selectedTask := task }, (s.taskSelect task).2)

def showPersonal (s : Feed) : Feed × List Post := (s, [s.getTasks .showPersonal [s.userObj]])

def showHistory (s : Feed) : Feed × List Post :=
  let s := { s with statusType := if s.statusType = .incomplete then .complete else .incomplete }
  (s, [s.getTasks .showHistory [s.userObj]])

/-- The list is emptied when the request is sent, not when it is answered. -/
def showEveryone (s : Feed) : Feed × List Post :=
  let everyone := s.getTasks .showEveryone s.pureHousemates
  let (s, posts) := s.taskSelect .undefined
  ({ s with selectedTask := .undefined, tasks := .arr [] }, everyone :: posts)

def addTask (s : Feed) : Feed × List Post :=
  (s, [⟨.addTask, .addTask, .obj [("taskOwner", .arr s.assignees), ("taskName", s.taskName),
    ("taskType", s.taskType), ("taskDueDate", s.taskDueDate),
    ("taskDescription", s.taskDescription), ("amount", s.billAmount),
    ("priority", s.chorePriority)]⟩])

def completeTask (id : JsVal) (s : Feed) : Feed × List Post :=
  (s, [⟨.completeTask, .deleteTask, .obj [("id", id)]⟩])

def startUpAnswered (data : JsVal) (s : Feed) : Feed × List Post :=
  match data.firstFilled with
  | some true =>
    if s.selectedTask matches .str "undefined" then
      { s with tasks := data }.selectFirst (data.elem0.getD .undefined)
    else ({ s with tasks := data }, [])
  | _ => (s, [])

def showPersonalAnswered (data : JsVal) (s : Feed) : Feed × List Post :=
  let selects := s.selectedTask matches .str "undefined"
  match selects, data.elem0 with
  | true, none => (s, [])
  | _, first =>
    let (s, posts) := if selects then s.selectFirst (first.getD .undefined) else (s, [])
    match data.firstFilled with
    | some true => ({ s with tasks := data }, posts)
    | _ => (s, posts)

def showHistoryAnswered (data : JsVal) (s : Feed) : Feed × List Post :=
  match data.firstFilled with
  | some true => { s with tasks := data }.selectFirst (data.elem0.getD .undefined)
  | _ => (s, [])

/-- Each list of the answer is pushed task by task. -/
def pushEach : List JsVal → JsVal → JsVal
  | .arr rows :: lists, .arr tasks => pushEach lists (.arr (tasks ++ rows))
  | _, tasks => tasks

theorem pushEach_lists (lists : List (List JsVal)) (tasks : List JsVal) :
    pushEach (lists.map .arr) (.arr tasks) = .arr (tasks ++ lists.flatten) := by
  induction lists generalizing tasks with
  | nil => simp [pushEach]
  | cons rows lists ih => simp [pushEach, ih]

theorem pushEach_undefined (lists : List JsVal) : pushEach lists .undefined = .undefined := by
  unfold pushEach
  split
  · contradiction
  · rfl

def showEveryoneAnswered (data : JsVal) (s : Feed) : Feed :=
  match data, data.firstFilled with
  | .arr lists, some true => { s with tasks := pushEach lists s.tasks }
  | _, _ => s

/-- The list of the tasks is asked for again when what was answered has a first element. -/
def addTaskAnswered (data : JsVal) (s : Feed) : Feed × List Post :=
  match data.firstUnlikeZero, s.tasks.push data with
  | some true, some tasks =>
    let s := { s with tasks := tasks }
    (s, [s.getTasks .addedTask [s.userObj]])
  | _, _ => (s, [])

def completedTaskAnswered (data : JsVal) (s : Feed) : Feed :=
  match data.elem0 with
  | some first => { s with tasks := data, selectedTask := first }
  | none => { s with tasks := data }

end Tasks

section Comments

def submitComment (s : Feed) : Feed × List Post :=
  match s.selectedTask.prop "task_id" with
  | some taskID => (s, [⟨.addComment, .addComment,
      .obj [("taskID", taskID), ("commentDescr", s.commentDescription)]⟩])
  | none => (s, [])

def deleteComment (comment : JsVal) (s : Feed) : Feed × List Post :=
  (s, [⟨.deleteComment, .deleteComment, comment.payload⟩])

/-- What a callback of `$http` is given. -/
def response (data : JsVal) : JsVal := .obj [("data", data), ("status", .num 200)]

/-- It is the response that is pushed, not what it holds. -/
def addCommentAnswered (data : JsVal) (s : Feed) : Feed :=
  match s.comments.push (response data) with
  | some comments => { s with comments := comments }
  | none => s

end Comments

section Groups

/-- The list of the members is not emptied. -/
def createGroup (s : Feed) : Feed × List Post :=
  ({ s with groupName := .null, groupDescr := .null, currentHousemate := .null },
    [⟨.createGroup, .createGroup, .obj [("group_members", .arr s.currResponsibilityGroup),
      ("group_name", s.groupName), ("group_descr", s.groupDescr)]⟩])

def joinGroup (s : Feed) : Feed × List Post :=
  ({ s with joinIntoGroup := .null },
    [⟨.joinGroup, .joinGroup, .obj [("groupId", s.joinIntoGroup)]⟩])

def addAssigneeToGroup (temp : JsVal) (s : Feed) : Feed :=
  match lastIndex (sameEmail temp) s.housemates with
  | some _ => { s with currResponsibilityGroup := s.currResponsibilityGroup ++ [temp] }
  | none => s

end Groups

/-- What the user does on the page; the last three are what is typed into its forms. -/
inductive Click where
  | showPersonal
  | showHistory
  | addTask
  | completeTask (id : JsVal)
  | showEveryone
  | taskSelect (task : JsVal)
  | submitComment
  | deleteComment (comment : JsVal)
  | addAssigneeToGroup (temp : JsVal)
  | createGroup
  | joinGroup
  | typeComment (commentDescription : JsVal)
  | typeGroup (groupName groupDescr : JsVal)
  | chooseGroup (joinIntoGroup : JsVal)

def click : Click → Feed → Feed × List Post
  | .showPersonal, s => s.showPersonal
  | .showHistory, s => s.showHistory
  | .addTask, s => s.addTask
  | .completeTask id, s => s.completeTask id
  | .showEveryone, s => s.showEveryone
  | .taskSelect task, s => s.taskSelect task
  | .submitComment, s => s.submitComment
  | .deleteComment comment, s => s.deleteComment comment
  | .addAssigneeToGroup temp, s => (s.addAssigneeToGroup temp, [])
  | .createGroup, s => s.createGroup
  | .joinGroup, s => s.joinGroup
  | .typeComment commentDescription, s => ({ s with commentDescription }, [])
  | .typeGroup groupName groupDescr, s => ({ s with groupName, groupDescr }, [])
  | .chooseGroup joinIntoGroup, s => ({ s with joinIntoGroup }, [])

/-- What runs when a request has been answered with success. -/
def answered : Call → JsVal → Feed → Feed × List Post
  | .startUp, data, s => s.startUpAnswered data
  | .initialTasks, _, s => (s, [])
  | .showPersonal, data, s => s.showPersonalAnswered data
  | .addTask, data, s => s.addTaskAnswered data
  | .addedTask, data, s => ({ s with tasks := data }, [])
  | .completeTask, _, s => (s, [s.getTasks .completedTask [s.userObj]])
  | .completedTask, data, s => (s.completedTaskAnswered data, [])
  | .showHistory, data, s => s.showHistoryAnswered data
  | .showEveryone, data, s => (s.showEveryoneAnswered data, [])
  | .getComment, data, s => ({ s with comments := data }, [])
  | .addComment, data, s => (s.addCommentAnswered data, [])
  | .deleteComment, _, s => (s, [])
  | .createGroup, _, s => (s, [])
  | .joinGroup, _, s => (s, [])

end Feed

end OneRoof
