import OneRoof.Assignment
import OneRoof.Census
import OneRoof.History
import OneRoof.Site
import OneRoof.TaskList

/-!
# What the pages of a site show

Every list that a page shows has come in the answer to one of its own requests, and the
registers say what that answer held. So, in any run of any number of browsers beside the
server, a task on a page was to be done at one moment of the run, comments were those of a task,
whoever can be chosen lived in a house that the session remembered, and the groups that can be
joined were those of such a house.
-/

namespace OneRoof

open Sql Async

variable {P : Platform}

section Sources

/-- A house that a session remembered when a request of it was answered; its user had lived
there. -/
def Recalled (who : Nat) (log : List Event) (h : Int) : Prop :=
  ∃ c answer user u, .answered c answer user ∈ log ∧ c.req.sid = who ∧ c.user = some u ∧
    u.houseID = some h ∧ Lived log u

/-- Somebody who lived in such a house at one moment, as the census had them. -/
def MemberOf (who : Nat) (log : List Event) (v : JsVal) : Prop :=
  ∃ h front row, Recalled who log h ∧ front <+: log ∧
    row ∈ (census front).members (residences front) h ∧ v = rowJs row

/-- The menu of the groups of such a house at one moment. -/
def MenuOf (who : Nat) (log : List Event) (v : JsVal) : Prop :=
  ∃ h front rows, Recalled who log h ∧ front <+: log ∧ v = houseGroupsJs rows ∧
    rows.map menuCells = (houseMenu (residences front) (groupBook front) h).map
      fun x => (.int x.1, x.2.1, .int x.2.2)

/-- Whose tasks are asked for: nobody's while the members are not there. -/
def Asked (who : Nat) (log : List Event) (v : JsVal) : Prop := v = .num 0 ∨ MemberOf who log v

/-- A list of the tasks of such a member, as the directory and the book were at one moment. -/
def TodoList (P : Platform) (who : Nat) (log : List Event) (v : JsVal) : Prop :=
  ∃ user status front rows, Asked who log user ∧ front <+: log ∧ v = taskRowsJs rows ∧
    rows.map listing =
      (todo P.collate (directory front) (bookOf P front) (user.get "email") status).map
        fun x => (.int x.1, .text x.2)

/-- Such a list, or a task of one. -/
def OfTodo (P : Platform) (who : Nat) (log : List Event) (v : JsVal) : Prop :=
  TodoList P who log v ∨ ∃ list, TodoList P who log list ∧ v ∈ list.items

/-- What can be selected: also nothing, and the text that is there at first. -/
def Picked (P : Platform) (who : Nat) (log : List Event) (v : JsVal) : Prop :=
  v.isScalar = true ∨ OfTodo P who log v

/-- The id of a task that a member of such a house had to do at one moment. What is not a task
has the id `undefined`. -/
def TaskOf (P : Platform) (who : Nat) (log : List Event) (id : JsVal) : Prop :=
  id = .undefined ∨ ∃ member status front n t, MemberOf who log member ∧ front <+: log ∧
    (n, t) ∈ todo P.collate (directory front) (bookOf P front) (member.get "email") status ∧
    id = .str t

/-- The comments under such a task at one moment, and behind them what was answered to those
that have been submitted since. -/
def CommentsOf (P : Platform) (who : Nat) (log : List Event) (v : JsVal) : Prop :=
  ∃ (task : JsVal) (front : List Event) (posted : List JsVal), TaskOf P who log task ∧
    front <+: log ∧
    v = .arr ((under P.collate task (remarks P front)).map (fun e => rowJs e.row) ++
      posted.map Feed.response)

/-- The id of a comment under such a task. A comment that was only just submitted has none. -/
def RemarkOf (P : Platform) (who : Nat) (log : List Event) (id : JsVal) : Prop :=
  id = .undefined ∨ ∃ task front e, TaskOf P who log task ∧ front <+: log ∧
    e ∈ under P.collate task (remarks P front) ∧ id = .num e.number

/-- The id of a group on such a menu, if one is chosen. -/
def GroupOf (who : Nat) (log : List Event) (id : JsVal) : Prop :=
  id = .undefined ∨ id = .null ∨ ∃ h front x, Recalled who log h ∧ front <+: log ∧
    x ∈ houseMenu (residences front) (groupBook front) h ∧ id = .num x.1

variable {who : Nat} {log log' : List Event} {v id : JsVal}

theorem Recalled.later {h : Int} (recalled : Recalled who log h) (le : log <+: log') :
    Recalled who log' h := by
  obtain ⟨c, answer, user, u, logged, own, signedIn, house, lived⟩ := recalled
  exact ⟨c, answer, user, u, le.subset logged, own, signedIn, house, lived.later le⟩

theorem MemberOf.later (member : MemberOf who log v) (le : log <+: log') :
    MemberOf who log' v := by
  obtain ⟨h, front, row, recalled, before, found⟩ := member
  exact ⟨h, front, row, recalled.later le, before.trans le, found⟩

theorem MenuOf.later (menu : MenuOf who log v) (le : log <+: log') : MenuOf who log' v := by
  obtain ⟨h, front, rows, recalled, before, shows⟩ := menu
  exact ⟨h, front, rows, recalled.later le, before.trans le, shows⟩

theorem Asked.later (asked : Asked who log v) (le : log <+: log') : Asked who log' v :=
  asked.imp_right fun member => member.later le

theorem TodoList.later (list : TodoList P who log v) (le : log <+: log') :
    TodoList P who log' v := by
  obtain ⟨user, status, front, rows, asked, before, shows⟩ := list
  exact ⟨user, status, front, rows, asked.later le, before.trans le, shows⟩

theorem OfTodo.later (todo : OfTodo P who log v) (le : log <+: log') : OfTodo P who log' v :=
  todo.imp (fun list => list.later le) fun ⟨list, found, mem⟩ => ⟨list, found.later le, mem⟩

theorem Picked.later (picked : Picked P who log v) (le : log <+: log') : Picked P who log' v :=
  picked.imp_right fun todo => todo.later le

theorem TaskOf.later (task : TaskOf P who log id) (le : log <+: log') : TaskOf P who log' id :=
  task.imp_right fun ⟨member, status, front, n, t, lives, before, listed⟩ =>
    ⟨member, status, front, n, t, lives.later le, before.trans le, listed⟩

theorem CommentsOf.later (comments : CommentsOf P who log v) (le : log <+: log') :
    CommentsOf P who log' v := by
  obtain ⟨task, front, posted, known, before, shows⟩ := comments
  exact ⟨task, front, posted, known.later le, before.trans le, shows⟩

theorem RemarkOf.later (remark : RemarkOf P who log id) (le : log <+: log') :
    RemarkOf P who log' id :=
  remark.imp_right fun ⟨task, front, e, known, before, listed⟩ =>
    ⟨task, front, e, known.later le, before.trans le, listed⟩

theorem GroupOf.later (group : GroupOf who log id) (le : log <+: log') : GroupOf who log' id :=
  group.imp_right fun chosen => chosen.imp_right fun ⟨h, front, x, recalled, before, listed⟩ =>
    ⟨h, front, x, recalled.later le, before.trans le, listed⟩

theorem fieldsOf_scalars {κ : Type} [Columns κ] (r : Row κ) :
    ∀ f ∈ fieldsOf r, f.2.isScalar = true := by
  intro f mem
  obtain ⟨c, -, rfl⟩ := List.mem_map.mp mem
  exact cellJs_scalar _

theorem joined_scalars {first second : List (String × JsVal)}
    (scalars : ∀ f ∈ first, f.2.isScalar = true) (scalars' : ∀ f ∈ second, f.2.isScalar = true) :
    ∀ f ∈ joined first second, f.2.isScalar = true := by
  intro f mem
  rcases List.mem_append.mp mem with kept | later
  · exact scalars f (List.mem_of_mem_filter kept)
  · exact scalars' f later

theorem rowJs_shallow {κ : Type} [Columns κ] (r : Row κ) : (rowJs r).Shallow :=
  obj_shallow (fieldsOf_scalars r)

theorem MemberOf.shallow (member : MemberOf who log v) : v.Shallow := by
  obtain ⟨h, front, row, -, -, -, rfl⟩ := member
  exact rowJs_shallow row

theorem OfTodo.shallow (todo : OfTodo P who log v) : v.Shallow := by
  rcases todo with ⟨user, status, front, rows, -, -, rfl, -⟩ |
    ⟨_, ⟨user, status, front, rows, -, -, rfl, -⟩, mem⟩
  · exact arr_shallow _
  · obtain ⟨r, -, rfl⟩ := List.mem_map.mp mem
    exact obj_shallow (joined_scalars (joined_scalars (fieldsOf_scalars _) (fieldsOf_scalars _))
      (fieldsOf_scalars _))

theorem Picked.shallow (picked : Picked P who log v) : v.Shallow :=
  picked.elim shallow_of_scalar OfTodo.shallow

theorem MenuOf.shallow (menu : MenuOf who log v) : ∀ item ∈ v.items, item.Shallow := by
  obtain ⟨h, front, rows, -, -, rfl, -⟩ := menu
  intro item mem
  obtain ⟨r, -, rfl⟩ := List.mem_map.mp mem
  exact obj_shallow (joined_scalars (joined_scalars (joined_scalars (fieldsOf_scalars _)
    (fieldsOf_scalars _)) (fieldsOf_scalars _)) (fieldsOf_scalars _))

/-- For nobody nothing is listed. -/
theorem todo_nobody {dir : List Entry} {book : Book} {status : JsVal} {n : Int} {t : String}
    (collate : String → String) : (n, t) ∉ todo collate dir book .undefined status := by
  intro listed
  obtain ⟨⟨a, -, -, named⟩, -⟩ := mem_todo.mp listed
  have none : JsVal.lit .undefined = .null := rfl
  simp [Entry.named, none, eqLit_null] at named

/-- A row of a list is about a task of a member. -/
theorem TodoList.names {list : JsVal} (todo : TodoList P who log list) (mem : v ∈ list.items) :
    TaskOf P who log (v.get "task_id") := by
  obtain ⟨user, status, front, rows, asked, le, rfl, lists⟩ := todo
  obtain ⟨r, found, rfl⟩ := List.mem_map.mp mem
  obtain ⟨⟨n, t⟩, listed, cells⟩ :=
    List.mem_map.mp (lists ▸ List.mem_map_of_mem found : listing r ∈ _)
  have shown : r.2.2 .task_id = .text t := (congrArg Prod.snd cells).symm
  right
  rcases asked with rfl | member
  · exact absurd listed (todo_nobody _)
  · refine ⟨user, status, front, n, t, member, le, listed, ?_⟩
    rw [show "task_id" = Columns.name TaskCol.task_id from rfl, joined_task, shown]
    rfl

theorem Picked.names (picked : Picked P who log v) : TaskOf P who log (v.get "task_id") := by
  rcases picked with scalar | ⟨user, status, front, rows, -, -, rfl, -⟩ | ⟨list, todo, mem⟩
  · exact Or.inl (by cases v <;> first | rfl | cases scalar)
  · exact Or.inl rfl
  · exact todo.names mem

/-- A comment on a page is one under the task, or what was answered to a new one. -/
theorem CommentsOf.names (comments : CommentsOf P who log v) :
    ∀ comment ∈ v.items, RemarkOf P who log (comment.payload.get "comment_id") := by
  obtain ⟨task, front, posted, known, le, rfl⟩ := comments
  intro comment mem
  rcases List.mem_append.mp mem with told | submitted
  · obtain ⟨e, listed, rfl⟩ := List.mem_map.mp told
    exact Or.inr ⟨task, front, e, known, le, listed, rfl⟩
  · obtain ⟨data, -, rfl⟩ := List.mem_map.mp submitted
    exact Or.inl rfl

/-- Of the four rows of a join the group's columns are the ones that are sent. -/
theorem joined_group (ug : Row UserGroupCol) (u : Row UserCol) (hu : Row HouseUserCol)
    (g : Row GroupCol) (c : GroupCol) :
    (JsVal.obj (joined (joined (joined (fieldsOf ug) (fieldsOf u)) (fieldsOf hu))
      (fieldsOf g))).get (Columns.name c) = cellJs (g c) := by
  cases c <;> rfl

theorem MenuOf.names (menu : MenuOf who log v) :
    ∀ item ∈ v.items, GroupOf who log (item.get "group_id") := by
  obtain ⟨h, front, rows, recalled, le, rfl, lists⟩ := menu
  intro item mem
  obtain ⟨r, found, rfl⟩ := List.mem_map.mp mem
  obtain ⟨x, listed, cells⟩ :=
    List.mem_map.mp (lists ▸ List.mem_map_of_mem found : menuCells r ∈ _)
  have shown : r.2.2.2 .group_id = .int x.1 := (congrArg Prod.fst cells).symm
  refine Or.inr (Or.inr ⟨h, front, x, recalled, le, listed, ?_⟩)
  rw [show "group_id" = Columns.name GroupCol.group_id from rfl, joined_group, shown]
  rfl

theorem TaskOf.scalar (task : TaskOf P who log id) : id.isScalar = true := by
  rcases task with rfl | ⟨member, status, front, n, t, -, -, -, rfl⟩ <;> rfl

theorem RemarkOf.scalar (remark : RemarkOf P who log id) : id.isScalar = true := by
  rcases remark with rfl | ⟨task, front, e, -, -, -, rfl⟩ <;> rfl

theorem GroupOf.scalar (group : GroupOf who log id) : id.isScalar = true := by
  rcases group with rfl | rfl | ⟨h, front, x, -, -, -, rfl⟩ <;> rfl

theorem prop_eq {key : String} {given : JsVal} (found : v.prop key = some given) :
    given = v.get key := by
  cases v <;> cases found <;> rfl

theorem payload_get (v : JsVal) (key : String) : v.payload.get key = v.get key := by
  cases v <;> rfl

end Sources

section Requests

/-- What a request of a page names is known to its session: the members of a house it has
remembered, what they had to do, the comments on that, and the groups of the house. -/
def Outgoing.Names (P : Platform) (who : Nat) (log : List Event) (o : Outgoing) : Prop :=
  match o.route with
  | .tasks => ∃ users, o.body.get "users" = .arr users ∧ ∀ user ∈ users, Asked who log user
  | .addTask => ∃ owners, o.body.get "taskOwner" = .arr owners ∧
    ∀ owner ∈ owners, MemberOf who log owner
  | .createGroup => ∃ members, o.body.get "group_members" = .arr members ∧
    ∀ member ∈ members, MemberOf who log member
  | .joinGroup => GroupOf who log (o.body.get "groupId")
  | .getComment => TaskOf P who log (o.body.get "task_id")
  | .addComment => TaskOf P who log (o.body.get "taskID")
  | .deleteTask => TaskOf P who log (o.body.get "id")
  | .updateTask => TaskOf P who log (o.body.get "taskId")
  | .deleteComment => RemarkOf P who log (o.body.get "comment_id")
  | _ => True

/-- A request that its handler can read, about what its session knows, and whose answer is what
its callback expects. -/
structure Outgoing.Proper (P : Platform) (who : Nat) (log : List Event) (o : Outgoing) : Prop where
  orderly : o.read.Orderly
  fits : ∀ route, o.callback.route = some route → o.route = route
  names : o.Names P who log

variable {who : Nat} {log log' : List Event} {o : Outgoing}

theorem Outgoing.Proper.later (proper : o.Proper P who log) (le : log <+: log') :
    o.Proper P who log' := by
  refine ⟨proper.orderly, proper.fits, ?_⟩
  have names := proper.names
  obtain ⟨callback, route, body⟩ := o
  cases route with
  | tasks =>
    obtain ⟨users, given, asked⟩ := names
    exact ⟨users, given, fun user mem => (asked user mem).later le⟩
  | addTask | createGroup =>
    obtain ⟨people, given, members⟩ := names
    exact ⟨people, given, fun v mem => (members v mem).later le⟩
  | joinGroup => exact GroupOf.later names le
  | getComment | addComment | deleteTask | updateTask => exact TaskOf.later names le
  | deleteComment => exact RemarkOf.later names le
  | _ => trivial

end Requests

/-- What the variables of the feed hold. -/
structure FeedShows (P : Platform) (who : Nat) (log : List Event) (s : Feed) : Prop where
  housemates : ∀ v ∈ s.housemates, MemberOf who log v
  pureHousemates : ∀ v ∈ s.pureHousemates, MemberOf who log v
  assignees : ∀ v ∈ s.assignees, MemberOf who log v
  group : ∀ v ∈ s.currResponsibilityGroup, MemberOf who log v
  userObj : Asked who log s.userObj
  tasks : ∀ v ∈ s.tasks.items, OfTodo P who log v
  selected : Picked P who log s.selectedTask
  kept : Picked P who log s.currentTask
  comments : s.comments = .undefined ∨ CommentsOf P who log s.comments
  joins : GroupOf who log s.joinIntoGroup
  typed : ∀ v ∈ [s.commentDescription, s.groupName, s.groupDescr, s.taskName, s.taskType,
    s.taskDueDate, s.taskDescription, s.billAmount, s.chorePriority], v.isScalar = true

section Feed

variable {who : Nat} {log log' : List Event} {s : Feed}

theorem FeedShows.later (shows : FeedShows P who log s) (le : log <+: log') :
    FeedShows P who log' s where
  housemates v mem := (shows.housemates v mem).later le
  pureHousemates v mem := (shows.pureHousemates v mem).later le
  assignees v mem := (shows.assignees v mem).later le
  group v mem := (shows.group v mem).later le
  userObj := shows.userObj.later le
  tasks v mem := (shows.tasks v mem).later le
  selected := shows.selected.later le
  kept := shows.kept.later le
  comments := shows.comments.imp_right fun comments => comments.later le
  joins := shows.joins.later le
  typed := shows.typed

/-- The controller starts with what an earlier one has kept. -/
theorem start_shows {currentTask : JsVal} (kept : Picked P who log currentTask) :
    FeedShows P who log (Feed.start currentTask) := by
  unfold Feed.start
  split
  all_goals exact
    { housemates := fun _ mem => absurd mem List.not_mem_nil
      pureHousemates := fun _ mem => absurd mem List.not_mem_nil
      assignees := fun _ mem => absurd mem List.not_mem_nil
      group := fun _ mem => absurd mem List.not_mem_nil
      userObj := Or.inl rfl
      tasks := fun _ mem => absurd mem List.not_mem_nil
      selected := by first | exact kept | exact Or.inl rfl
      kept := kept
      comments := Or.inl rfl
      joins := Or.inl rfl
      typed := by simp [JsVal.isScalar] }

theorem loadEach_shows {curUserName : JsVal} {members : List JsVal}
    (people : ∀ v ∈ members, MemberOf who log v) (shows : FeedShows P who log s) :
    FeedShows P who log (Feed.loadEach curUserName members s) := by
  induction members generalizing s with
  | nil => exact shows
  | cons i members ih =>
    obtain ⟨first, rest⟩ := List.forall_mem_cons.mp people
    have added : ∀ {list : List JsVal}, (∀ v ∈ list, MemberOf who log v) →
        ∀ v ∈ list ++ [i], MemberOf who log v := by
      intro list old v mem
      rcases List.mem_append.mp mem with there | new
      · exact old v there
      · exact List.mem_singleton.mp new ▸ first
    unfold Feed.loadEach
    split
    · exact shows
    · refine ih rest { shows with
        housemates := added shows.housemates
        pureHousemates := added shows.pureHousemates
        userObj := ?_ }
      dsimp only
      split
      · exact Or.inr first
      · exact shows.userObj

theorem addAssignee_shows {temp : JsVal} (member : MemberOf who log temp)
    (shows : FeedShows P who log s) :
    FeedShows P who log { s with currentHousemate := temp }.addAssignee := by
  unfold Feed.addAssignee
  dsimp only
  split
  · refine { shows with
      housemates := fun v mem => shows.housemates v (List.mem_of_mem_eraseIdx mem)
      assignees := fun v mem => ?_ }
    rcases List.mem_append.mp mem with old | new
    · exact shows.assignees v old
    · exact List.mem_singleton.mp new ▸ member
  · exact { shows with }

theorem removeAssignee_shows (i : Nat) (shows : FeedShows P who log s) :
    FeedShows P who log (s.removeAssignee i) := by
  unfold Feed.removeAssignee
  split
  · rename_i value found
    refine { shows with
      assignees := fun v mem => shows.assignees v (List.mem_of_mem_eraseIdx mem)
      housemates := fun v mem => ?_ }
    rcases List.mem_append.mp mem with old | new
    · exact shows.housemates v old
    · exact List.mem_singleton.mp new ▸ shows.assignees value (List.mem_of_getElem? found)
  · exact shows

theorem addToGroup_shows {temp : JsVal} (member : MemberOf who log temp)
    (shows : FeedShows P who log s) : FeedShows P who log (s.addAssigneeToGroup temp) := by
  unfold Feed.addAssigneeToGroup
  split
  · refine { shows with group := fun v mem => ?_ }
    rcases List.mem_append.mp mem with old | new
    · exact shows.group v old
    · exact List.mem_singleton.mp new ▸ member
  · exact shows

theorem taskSelect_shows {task : JsVal} (picked : Picked P who log task)
    (shows : FeedShows P who log s) : FeedShows P who log (s.taskSelect task).1 :=
  { shows with selected := picked, kept := picked }

end Feed

/-- The variables after a step of the controller of the feed, and what it has posted. -/
structure FeedKeeps (P : Platform) (who : Nat) (log : List Event) (r : Feed × List Post) :
    Prop where
  shows : FeedShows P who log r.1
  posts : ∀ post ∈ r.2, post.outgoing.Proper P who log

section Clicks

variable {who : Nat} {log : List Event} {s : Feed}

theorem proper_of_body {o : Outgoing} (body : o.body.Orderly)
    (fits : ∀ route, o.callback.route = some route → o.route = route)
    (names : o.Names P who log) : o.Proper P who log :=
  ⟨read_orderly body, fits, names⟩

theorem post_proper {post : Post} (body : post.body.Orderly)
    (fits : post.route = post.call.route) (names : post.outgoing.Names P who log) :
    post.outgoing.Proper P who log :=
  proper_of_body body (fun _ same => fits.trans (Option.some.inj same)) names

theorem Asked.shallow {v : JsVal} (asked : Asked who log v) : v.Shallow := by
  rcases asked with rfl | member
  · exact shallow_of_scalar rfl
  · exact member.shallow

theorem getTasks_proper {call : Call} (route : call.route = .tasks) {users : List JsVal}
    (asked : ∀ user ∈ users, Asked who log user) (s : Feed) :
    (s.getTasks call users).outgoing.Proper P who log := by
  refine post_proper (obj_orderly ?_) route.symm ⟨users, rfl, asked⟩
  simp only [List.forall_mem_cons]
  refine ⟨Or.inr ⟨by decide, users, rfl, fun v mem => (asked v mem).shallow⟩, Or.inl ?_,
    fun _ mem => absurd mem List.not_mem_nil⟩
  cases s.statusType <;> rfl

theorem FeedShows.asks_user (shows : FeedShows P who log s) :
    ∀ user ∈ [s.userObj], Asked who log user :=
  fun _ mem => List.mem_singleton.mp mem ▸ shows.userObj

theorem FeedShows.asks_everyone (shows : FeedShows P who log s) :
    ∀ user ∈ s.pureHousemates, Asked who log user :=
  fun v mem => Or.inr (shows.pureHousemates v mem)

theorem select_keeps {task : JsVal} (picked : Picked P who log task)
    (shows : FeedShows P who log s) : FeedKeeps P who log (s.taskSelect task) := by
  refine ⟨taskSelect_shows picked shows, fun post mem => ?_⟩
  rw [List.mem_singleton.mp mem]
  refine post_proper (payload_orderly picked.shallow) rfl ?_
  change TaskOf P who log (task.payload.get "task_id")
  rw [payload_get]
  exact picked.names

theorem showEveryone_keeps (shows : FeedShows P who log s) :
    FeedKeeps P who log s.showEveryone := by
  have picked : Picked P who log .undefined := Or.inl rfl
  refine ⟨{ shows with
    tasks := fun _ mem => absurd mem List.not_mem_nil, selected := picked, kept := picked }, ?_⟩
  simp only [Feed.showEveryone, List.forall_mem_cons]
  exact ⟨getTasks_proper rfl shows.asks_everyone s, (select_keeps picked shows).posts⟩

theorem showHistory_keeps (shows : FeedShows P who log s) :
    FeedKeeps P who log s.showHistory := by
  have turned : FeedShows P who log
      { s with statusType := if s.statusType = .incomplete then .complete else .incomplete } :=
    { shows with }
  refine ⟨turned, fun post mem => ?_⟩
  rw [List.mem_singleton.mp mem]
  exact getTasks_proper rfl turned.asks_user _

theorem completeTask_keeps {id : JsVal} (task : TaskOf P who log id)
    (shows : FeedShows P who log s) : FeedKeeps P who log (s.completeTask id) := by
  refine ⟨shows, fun post mem => ?_⟩
  rw [List.mem_singleton.mp mem]
  exact post_proper (obj_shallow (by simpa using task.scalar)).orderly rfl task

theorem submitComment_keeps (shows : FeedShows P who log s) :
    FeedKeeps P who log s.submitComment := by
  unfold Feed.submitComment
  split
  · rename_i taskID given
    have task : TaskOf P who log taskID := prop_eq given ▸ shows.selected.names
    have text := shows.typed s.commentDescription List.mem_cons_self
    refine ⟨shows, fun post mem => ?_⟩
    rw [List.mem_singleton.mp mem]
    exact post_proper (obj_shallow (by simp [task.scalar, text])).orderly rfl task
  · exact ⟨shows, fun _ mem => absurd mem List.not_mem_nil⟩

theorem deleteComment_keeps {comment : JsVal} (mem : comment ∈ s.comments.items)
    (shows : FeedShows P who log s) : FeedKeeps P who log (s.deleteComment comment) := by
  refine ⟨shows, fun post posted => ?_⟩
  rw [List.mem_singleton.mp posted]
  rcases shows.comments with none | shown
  · rw [none] at mem
    exact absurd mem List.not_mem_nil
  · have remark := shown.names comment mem
    exact ⟨(obj_shallow (by simpa [Post.outgoing] using remark.scalar)).orderly,
      fun route same => Option.some.inj same, remark⟩

theorem addTask_keeps (shows : FeedShows P who log s) : FeedKeeps P who log s.addTask := by
  refine ⟨shows, fun post mem => ?_⟩
  rw [List.mem_singleton.mp mem]
  have typed := shows.typed
  simp only [List.forall_mem_cons] at typed
  obtain ⟨-, -, -, name, type, due, description, amount, priority, -⟩ := typed
  refine post_proper (obj_orderly ?_) rfl ⟨s.assignees, rfl, shows.assignees⟩
  simp only [List.forall_mem_cons]
  exact ⟨Or.inr ⟨by decide, s.assignees, rfl, fun v mem => (shows.assignees v mem).shallow⟩,
    Or.inl name, Or.inl type, Or.inl due, Or.inl description, Or.inl amount, Or.inl priority,
    fun _ mem => absurd mem List.not_mem_nil⟩

theorem createGroup_keeps (shows : FeedShows P who log s) : FeedKeeps P who log s.createGroup := by
  have typed := shows.typed
  simp only [List.forall_mem_cons] at typed
  refine ⟨{ shows with typed := ?_ }, fun post mem => ?_⟩
  · simp only [Feed.createGroup, List.forall_mem_cons]
    exact ⟨typed.1, rfl, rfl, typed.2.2.2⟩
  · rw [List.mem_singleton.mp mem]
    refine post_proper (obj_orderly ?_) rfl ⟨s.currResponsibilityGroup, rfl, shows.group⟩
    simp only [List.forall_mem_cons]
    exact ⟨Or.inr ⟨by decide, s.currResponsibilityGroup, rfl,
      fun v mem => (shows.group v mem).shallow⟩, Or.inl typed.2.1, Or.inl typed.2.2.1,
      fun _ mem => absurd mem List.not_mem_nil⟩

theorem joinGroup_keeps (shows : FeedShows P who log s) : FeedKeeps P who log s.joinGroup := by
  refine ⟨{ shows with joins := Or.inr (Or.inl rfl) }, fun post mem => ?_⟩
  rw [List.mem_singleton.mp mem]
  exact post_proper (obj_shallow (by simpa using shows.joins.scalar)).orderly rfl shows.joins

end Clicks

/-- Lists of tasks, one for each user who was asked for. -/
def TodoLists (P : Platform) (who : Nat) (log : List Event) (data : JsVal) : Prop :=
  ∃ lists, data = .arr lists ∧ ∀ list ∈ lists, TodoList P who log list

/-- What is answered to the requests of the feed. -/
def Call.Told (P : Platform) (who : Nat) (log : List Event) (data : JsVal) (call : Call) : Prop :=
  match call.route with
  | .tasks => TodoLists P who log data
  | .getComment => ∃ task front, TaskOf P who log task ∧ front <+: log ∧
    data = rowsJs ((under P.collate task (remarks P front)).map Remark.row)
  | .addTask => data = .str ""
  | _ => True

section Answered

variable {who : Nat} {log : List Event} {s : Feed} {data : JsVal}

theorem TodoLists.fill (lists : TodoLists P who log data) (shows : FeedShows P who log s) :
    FeedShows P who log { s with tasks := data } := by
  obtain ⟨lists, rfl, each⟩ := lists
  exact { shows with tasks := fun list mem => Or.inl (each list mem) }

theorem TodoLists.first (lists : TodoLists P who log data) :
    Picked P who log (data.elem0.getD .undefined) := by
  obtain ⟨lists, rfl, each⟩ := lists
  cases lists with
  | nil => exact Or.inl rfl
  | cons list lists => exact Or.inr (Or.inl (each list List.mem_cons_self))

theorem selectFirst_keeps {task : JsVal} (picked : Picked P who log task)
    (shows : FeedShows P who log s) : FeedKeeps P who log (s.selectFirst task) :=
  ⟨{ taskSelect_shows picked shows with selected := picked }, (select_keeps picked shows).posts⟩

theorem keeps_quiet (shows : FeedShows P who log s) : FeedKeeps P who log (s, []) :=
  ⟨shows, fun _ mem => absurd mem List.not_mem_nil⟩

theorem startUp_keeps (lists : TodoLists P who log data) (shows : FeedShows P who log s) :
    FeedKeeps P who log (s.startUpAnswered data) := by
  unfold Feed.startUpAnswered
  split
  · split
    · exact selectFirst_keeps lists.first (lists.fill shows)
    · exact keeps_quiet (lists.fill shows)
  · exact keeps_quiet shows

theorem showPersonal_keeps (lists : TodoLists P who log data) (shows : FeedShows P who log s) :
    FeedKeeps P who log (s.showPersonalAnswered data) := by
  have selected : ∀ selects : Bool, FeedKeeps P who log
      (if selects then s.selectFirst (data.elem0.getD .undefined) else (s, [])) := by
    intro selects
    split
    · exact selectFirst_keeps lists.first shows
    · exact keeps_quiet shows
  unfold Feed.showPersonalAnswered
  dsimp only
  split
  · exact keeps_quiet shows
  · split
    · exact ⟨lists.fill (selected _).shows, (selected _).posts⟩
    · exact selected _

theorem showHistoryAnswered_keeps (lists : TodoLists P who log data)
    (shows : FeedShows P who log s) : FeedKeeps P who log (s.showHistoryAnswered data) := by
  unfold Feed.showHistoryAnswered
  split
  · exact selectFirst_keeps lists.first (lists.fill shows)
  · exact keeps_quiet shows

/-- What is pushed comes out of one of the lists. -/
theorem mem_pushEach {lists : List JsVal} {tasks v : JsVal}
    (mem : v ∈ (Feed.pushEach lists tasks).items) :
    v ∈ tasks.items ∨ ∃ list ∈ lists, v ∈ list.items := by
  fun_induction Feed.pushEach lists tasks with
  | case1 rows lists tasks ih =>
    rcases ih mem with old | ⟨list, listed, found⟩
    · rcases List.mem_append.mp old with before | pushed
      · exact Or.inl before
      · exact Or.inr ⟨.arr rows, List.mem_cons_self, pushed⟩
    · exact Or.inr ⟨list, List.mem_cons_of_mem _ listed, found⟩
  | case2 lists tasks => exact Or.inl mem

theorem showEveryoneAnswered_shows (lists : TodoLists P who log data)
    (shows : FeedShows P who log s) : FeedShows P who log (s.showEveryoneAnswered data) := by
  obtain ⟨lists, rfl, each⟩ := lists
  unfold Feed.showEveryoneAnswered
  split
  · rename_i same _
    cases same
    refine { shows with tasks := fun v mem => ?_ }
    rcases mem_pushEach mem with old | ⟨list, listed, found⟩
    · exact shows.tasks v old
    · exact Or.inr ⟨list, each list listed, found⟩
  · exact shows

theorem completedTask_shows (lists : TodoLists P who log data) (shows : FeedShows P who log s) :
    FeedShows P who log (s.completedTaskAnswered data) := by
  unfold Feed.completedTaskAnswered
  split
  · rename_i first head
    have picked := lists.first
    rw [head] at picked
    exact { lists.fill shows with selected := picked }
  · exact lists.fill shows

theorem addComment_shows (shows : FeedShows P who log s) :
    FeedShows P who log (s.addCommentAnswered data) := by
  unfold Feed.addCommentAnswered
  split
  · rename_i comments pushed
    refine { shows with comments := Or.inr ?_ }
    rcases shows.comments with none | ⟨task, front, posted, known, le, told⟩
    · rw [none] at pushed
      cases pushed
    · rw [told] at pushed
      cases pushed
      exact ⟨task, front, posted ++ [data], known, le, by simp⟩
  · exact shows

theorem comments_shows {task : JsVal} {front : List Event} (known : TaskOf P who log task)
    (le : front <+: log) (shows : FeedShows P who log s) : FeedShows P who log
      { s with comments := rowsJs ((under P.collate task (remarks P front)).map Remark.row) } :=
  { shows with
    comments := Or.inr ⟨task, front, [], known, le, by simp [rowsJs, Function.comp_def]⟩ }

/-- Whatever is answered to a request of the feed. -/
theorem answered_keeps {call : Call} (told : call.Told P who log data)
    (shows : FeedShows P who log s) : FeedKeeps P who log (s.answered call data) := by
  cases call with
  | startUp => exact startUp_keeps told shows
  | initialTasks => exact keeps_quiet shows
  | showPersonal => exact showPersonal_keeps told shows
  | addTask =>
    cases told
    exact keeps_quiet shows
  | addedTask => exact keeps_quiet (TodoLists.fill told shows)
  | completeTask =>
    refine ⟨shows, fun post mem => ?_⟩
    rw [List.mem_singleton.mp mem]
    exact getTasks_proper rfl shows.asks_user s
  | completedTask => exact keeps_quiet (completedTask_shows told shows)
  | showHistory => exact showHistoryAnswered_keeps told shows
  | showEveryone => exact keeps_quiet (showEveryoneAnswered_shows told shows)
  | getComment =>
    obtain ⟨task, front, known, le, rfl⟩ := told
    exact keeps_quiet (comments_shows known le shows)
  | addComment => exact keeps_quiet (addComment_shows shows)
  | deleteComment | createGroup | joinGroup => exact keeps_quiet shows

end Answered

end OneRoof
