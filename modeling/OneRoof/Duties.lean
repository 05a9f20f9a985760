import OneRoof.Housing
import OneRoof.Lifecycle
import OneRoof.Logins

/-!
# The book of tasks

The tasks are a book: their ids, the status that each of them was given last, and who has to
do them. A task is entered as incomplete, whoever completes or contests it gives it another
status, and nothing is ever crossed out. What a look-up lists for an email is what the book and
the directory of accounts held when it ran: the tasks that were linked to the account before,
by the last status that each of them was given.
-/

namespace OneRoof

open Sql Async Async.Prog Prog

variable {P : Platform}

/-- A task that somebody has to do. -/
structure Duty where
  task : String
  owner : Value

/-- The ids of the tasks, the status that was last given to an id, and who has to do what. -/
structure Book where
  tasks : List String := []
  status : String → Value := fun _ => .null
  duties : List Duty := []

/-- The value in a statement finds the task with this id. -/
def JsVal.names (collate : String → String) (v : JsVal) (id : String) : Bool :=
  eqLit collate (.text id) v.lit = some true

def Book.mark (collate : String → String) (v : JsVal) (status : Value) (book : Book) : Book :=
  { book with status := fun id => if v.names collate id then status else book.status id }

def Book.enter (collate : String → String) (id : String) (status : Value) (book : Book) : Book :=
  { book with
    tasks := book.tasks ++ [id]
    status := fun id' => if collate id' = collate id then status else book.status id' }

theorem mark_status (collate : String → String) (v : JsVal) (status : Value) (book : Book)
    (id : String) : (book.mark collate v status).status id =
      if v.names collate id then status else book.status id := rfl

theorem enter_status (collate : String → String) (id : String) (status : Value) (book : Book)
    (id' : String) : (book.enter collate id status).status id' =
      if collate id' = collate id then status else book.status id' := rfl

/-- What a completed statement makes of the book. -/
def booking (P : Platform) (_ : Ctx) : (s : Stmt) → s.Reply → Book → Book
  | .createTask task, _, book => book.enter P.collate (cut 100 task.taskID)
      (store TaskCol.task_status (.text task.taskStatus))
  | .updateUserTaskTable taskID owner _, _, book => { book with
      duties := book.duties ++ [⟨cut 100 taskID, store UserTaskCol.task_owner_id
        owner.lit.value⟩] }
  | .removeTask _ id, _, book => book.mark P.collate id (.text "complete")
  | .updateTask status id, _, book =>
    book.mark P.collate id (store TaskCol.task_status status.lit.value)
  | _, _, book => book

/-- The book that the statements of a log leave. -/
abbrev bookOf (P : Platform) (log : List Event) : Book := replay (booking P) {} log

def Book.cells (book : Book) (id : String) : Value × Value := (.text id, book.status id)

def Duty.cells (d : Duty) : Value × Value := (.text d.task, d.owner)

def taskCells (r : Row TaskCol) : Value × Value := (r .task_id, r .task_status)

def dutyCells (r : Row UserTaskCol) : Value × Value := (r .task_id, r .task_owner_id)

/-- The tables show the book. -/
structure ShowsBook (db : Database P.collate) (book : Book) : Prop where
  tasks : db.tables.task.map taskCells = book.tasks.map book.cells
  duties : db.tables.userTask.map dutyCells = book.duties.map Duty.cells

/-- The lists of users hold users: what stands for the id of an owner or for the email of
somebody who is asked for is a scalar. -/
structure Request.Tidy (q : Request) : Prop where
  plain : q.Plain
  owners : q.ListsScalars "taskOwner" "user_id"
  emails : q.ListsScalars "users" "email"

/-- The owner that a statement links is a scalar. -/
def Stmt.ownerScalar : Stmt → Bool
  | .updateUserTaskTable _ owner _ => owner.isScalar
  | _ => true

/-- What the handler of a tidy request may send. -/
structure Books (P : Platform) (c : Ctx) (s : Stmt) : Prop where
  enrols : KeepsAccounts P c s
  owner : s.ownerScalar = true

section Issues

variable {c : Ctx} {s : Stmt}

theorem addTask_owners (tidy : c.req.Tidy) :
    (addTask c.req c.user).Issues fun s => s.ownerScalar = true := by
  refine query_issues rfl <| thenCatch_issues (fun _ => ?_) (send_issues _ _)
  refine Issues.andThen (attempt_issues fun list looped => ?_) (attempt_issues fun chore _ => ?_)
  · refine startEach_issues_mem (fun o mem s hs => ?_) done_issues
    obtain ⟨owner, given, hs⟩ := Option.bind_eq_some_iff.mp hs
    obtain ⟨u, -, hs⟩ := Option.bind_eq_some_iff.mp hs
    cases hs
    exact tidy.owners list looped o mem owner given
  · split
    · exact ⟨rfl, thenCatch_issues (fun _ => send_issues _ _) trivial, send_issues _ _⟩
    · exact attempt_issues fun amount _ => start_issues rfl (send_issues _ _)

theorem Sends.ownerScalar (sends : Sends P c s) (other : c.req.route ≠ .addTask) :
    s.ownerScalar = true := by
  cases sends with
  | select reads => cases s <;> first | rfl | cases reads
  | updateUserTaskTable route => exact absurd route other
  | _ => rfl

theorem handler_owners (tidy : c.req.Tidy) :
    (handler P c).Issues fun s => s.ownerScalar = true := by
  by_cases route : c.req.route = .addTask
  · refine Issues.recover ?_ (send_issues _ _)
    rw [OneRoof.route, route]
    exact addTask_owners tidy
  · exact (handler_issues P c).mono fun s sends => sends.ownerScalar route

theorem handler_books (c : Ctx) (tidy : c.req.Tidy) : (handler P c).Issues (Books P c) :=
  (issues_and (handler_enrols c tidy.plain) (handler_owners tidy)).mono
    fun _ both => ⟨both.1, both.2⟩

end Issues

section Rows

variable {c : Ctx} {s : Stmt} {db db' : Database P.collate} {book : Book}

/-- A statement that gives the tasks with an id another status. -/
theorem mark_shown {sets : List (TaskCol × Rhs TaskCol)} {status : Value} {v : JsVal}
    (kept : ∀ r : Row TaskCol, assign P.collate sets r .task_id = r .task_id)
    (set : ∀ r : Row TaskCol, assign P.collate sets r .task_status = status)
    (shown : db.tables.task.map taskCells = book.tasks.map book.cells) :
    (update P.collate (.eq .task_id v.lit) sets db.tables.task).map taskCells =
      book.tasks.map (book.mark P.collate v status).cells := by
  have marked : ∀ (r : Row TaskCol) (id : String), taskCells r = book.cells id →
      taskCells (if (Cond.eq TaskCol.task_id v.lit).hits P.collate r then
        assign P.collate sets r else r) = (book.mark P.collate v status).cells id := by
    intro r id same
    have named : r .task_id = .text id := congrArg Prod.fst same
    have hits : (Cond.eq TaskCol.task_id v.lit).hits P.collate r = v.names P.collate id := by
      rw [Cond.hits, Cond.eval, named]
      rfl
    rw [hits, Book.cells, mark_status]
    split
    · rw [taskCells, kept, set, named]
    · exact same
  rw [← List.forall₂_eq_eq_eq, List.forall₂_map_left_iff, List.forall₂_map_right_iff] at shown
  rw [← List.forall₂_eq_eq_eq, update, List.forall₂_map_left_iff, List.forall₂_map_left_iff,
    List.forall₂_map_right_iff]
  exact shown.imp marked

/-- A new task has an id that no other has, and its own status. -/
theorem enter_shown {task : NewTask} {row : Row TaskCol}
    (filled : taskRow P.collate task = some row)
    (key : Keyed P.collate .task_id (db.tables.task ++ [row]))
    (shown : db.tables.task.map taskCells = book.tasks.map book.cells) :
    (db.tables.task ++ [row]).map taskCells =
      (book.tasks ++ [cut 100 task.taskID]).map (book.enter P.collate (cut 100 task.taskID)
        (store TaskCol.task_status (.text task.taskStatus))).cells := by
  have id : row .task_id = .text (cut 100 task.taskID) :=
    newRow_cell filled (v := .str task.taskID) (by simp) (by simp) rfl
  have status : row .task_status = store TaskCol.task_status (.text task.taskStatus) :=
    newRow_cell filled (v := .str task.taskStatus) (by simp) (by simp) rfl
  have apart : ∀ id ∈ book.tasks, P.collate id ≠ P.collate (cut 100 task.taskID) := by
    intro id' mem same
    have there : book.cells id' ∈ db.tables.task.map taskCells :=
      shown ▸ List.mem_map_of_mem mem
    obtain ⟨r, known, cells⟩ := List.mem_map.mp there
    have named : r .task_id = .text id' := congrArg Prod.fst cells
    refine (List.pairwise_append.mp key).2.2 r known row (List.mem_singleton_self row) ?_
    rw [named, id, eqValue_text]
    exact same
  rw [List.map_append, List.map_append, shown]
  refine congrArg₂ _ (List.map_congr_left fun id' mem => ?_) ?_
  · rw [Book.cells, Book.cells, enter_status, if_neg (apart id' mem)]
  · rw [List.map_singleton, List.map_singleton, taskCells, id, status, Book.cells, enter_status,
      if_pos rfl]

theorem userTaskRow_duty {n : Nat} {taskID : String} {owner : JsVal} {creator : Option Int}
    {row : Row UserTaskCol} (scalar : owner.isScalar = true)
    (filled : userTaskRow P.collate n taskID owner creator = some row) :
    dutyCells row = Duty.cells ⟨cut 100 taskID, store UserTaskCol.task_owner_id
      owner.lit.value⟩ := by
  have id : row .task_id = .text (cut 100 taskID) :=
    newRow_cell filled (v := .str taskID) (by simp) (by simp) rfl
  have linked : row .task_owner_id = store UserTaskCol.task_owner_id owner.lit.value :=
    newRow_cell filled (by simp) (by simp) scalar
  rw [dutyCells, id, linked]
  rfl

end Rows

/-- The id and the status of a plain request that gives a task another status. -/
theorem Sends.marks_scalar {c : Ctx} {s : Stmt} (sends : Sends P c s) (plain : c.req.Plain) :
    (∀ text id, s = .removeTask text id → id.isScalar = true) ∧
      ∀ status id, s = .updateTask status id → status.isScalar = true ∧ id.isScalar = true := by
  cases sends with
  | select reads =>
    refine ⟨?_, ?_⟩
    · rintro text id rfl
      cases reads
    · rintro status id rfl
      cases reads
  | removeTask =>
    refine ⟨?_, ?_⟩
    · rintro text id ⟨⟩
      exact plain.body "id" (by decide)
    · rintro status id ⟨⟩
  | updateTask =>
    refine ⟨?_, ?_⟩
    · rintro text id ⟨⟩
    · rintro status id ⟨⟩
      exact ⟨plain.body "taskStatus" (by decide), plain.body "taskId" (by decide)⟩
  | _ => exact ⟨by rintro _ _ ⟨⟩, by rintro _ _ ⟨⟩⟩

/-- Statements that are not about tasks leave their tables. -/
theorem book_same {s : Stmt} {r : s.Reply} {db db' : Database P.collate}
    (he : exec P.collate s db = some (r, db')) (entered : ∀ task, s ≠ .createTask task)
    (linked : ∀ taskID owner creator, s ≠ .updateUserTaskTable taskID owner creator)
    (marked : s.setsTask = none) :
    db'.tables.task = db.tables.task ∧ db'.tables.userTask = db.tables.userTask := by
  have effect := exec_effect he
  generalize db'.tables = t at effect ⊢
  generalize db'.next = n at effect
  cases effect with
  | createTask => exact absurd rfl (entered _)
  | updateUserTaskTable => exact absurd rfl (linked _ _ _)
  | setTask writes =>
    rw [marked] at writes
    cases writes
  | _ => exact ⟨rfl, rfl⟩

/-- Statements that give tasks another status. -/
theorem setsTask_tables {s : Stmt} {r : s.Reply} {db db' : Database P.collate}
    (he : exec P.collate s db = some (r, db')) {sets : List (TaskCol × Rhs TaskCol)}
    {q : Cond TaskCol} (writes : s.setsTask = some (sets, q)) :
    db'.tables.task = update P.collate q sets db.tables.task ∧
      db'.tables.userTask = db.tables.userTask := by
  have effect := exec_effect he
  generalize db'.tables = t at effect ⊢
  generalize db'.next = n at effect
  cases effect with
  | setTask writes' =>
    cases writes.symm.trans writes'
    exact ⟨rfl, rfl⟩
  | select reads => cases s <;> simp_all [Stmt.isSelect, Stmt.setsTask]
  | setUser other => cases s <;> simp_all [Stmt.setsUser, Stmt.setsTask]
  | _ => cases writes

theorem book_refines : Refines P Request.Tidy (Books P) (booking P) {} ShowsBook where
  start := ⟨rfl, rfl⟩
  issues := handler_books
  preserve := by
    intro c s r db db' book allowed he shown
    obtain ⟨⟨plain, sends, -⟩, scalar⟩ := allowed
    obtain ⟨removes, updates⟩ := sends.marks_scalar plain
    cases s with
    | createTask task =>
      obtain ⟨row, filled, tables⟩ := createTask_tables he
      refine ⟨?_, ?_⟩
      · have key := db'.sound.task_key
        rw [tables] at key ⊢
        exact enter_shown filled key shown.tasks
      · rw [tables]
        exact shown.duties
    | updateUserTaskTable taskID owner creator =>
      obtain ⟨row, filled, he⟩ := Option.bind_eq_some_iff.mp he
      obtain ⟨tables, -, -⟩ := bind_commit he
      refine ⟨?_, ?_⟩
      · rw [tables]
        exact shown.tasks
      · rw [tables, List.map_append, shown.duties, List.map_singleton,
          userTaskRow_duty scalar filled, booking, List.map_append]
        rfl
    | removeTask text id =>
      have writes : (Stmt.removeTask text id).setsTask =
          some ([(.task_archived_date, .lit (.str text)), (.task_status, .lit (.str "complete"))],
            .eq .task_id id.lit) := by
        rw [Stmt.setsTask, JsVal.escape_scalar (removes text id rfl)]
        rfl
      obtain ⟨tasks, duties⟩ := setsTask_tables he writes
      refine ⟨?_, duties ▸ shown.duties⟩
      rw [tasks]
      exact mark_shown (fun r => assign_frame (by simp) r)
        (fun r => assign_cell (l := .str "complete") (by simp) (by simp) r) shown.tasks
    | updateTask status id =>
      obtain ⟨given, named⟩ := updates status id rfl
      have writes : (Stmt.updateTask status id).setsTask =
          some ([(.task_status, .lit status.lit)], .eq .task_id id.lit) := by
        rw [Stmt.setsTask, setTo_scalar _ given, JsVal.escape_scalar named]
        rfl
      obtain ⟨tasks, duties⟩ := setsTask_tables he writes
      refine ⟨?_, duties ▸ shown.duties⟩
      rw [tasks]
      exact mark_shown (fun r => assign_frame (by simp) r)
        (fun r => assign_cell (by simp) (by simp) r) shown.tasks
    | _ =>
      obtain ⟨tasks, duties⟩ := book_same he (by simp) (by simp) rfl
      exact ⟨tasks ▸ shown.tasks, duties ▸ shown.duties⟩

section Lists

/-- What a look-up by email and status has to list: accounts with their tasks. -/
def todo (collate : String → String) (dir : List Entry) (book : Book)
    (email status : JsVal) : List (Int × String) :=
  dir.flatMap fun a => book.duties.flatMap fun d => (book.tasks.filter fun id =>
    d.owner = .int a.number ∧ collate id = collate d.task ∧ a.named collate email = true ∧
      eqLit collate (book.status id) status.lit = some true).map fun id => (a.number, id)

/-- Who has to do a listed task, and which one it is. -/
def listing (x : Row UserCol × Row UserTaskCol × Row TaskCol) : Value × Value :=
  (x.1 .user_id, x.2.2 .task_id)

theorem todo_eq {db : Database P.collate} {dir : List Entry} {book : Book}
    (known : ShowsDirectory db dir) (shown : ShowsBook db book) (email status : JsVal) :
    (tasksForUser P.collate (.eq (.u .email) email.lit) (.eq (.t .task_status) status.lit)
        db.tables).map listing =
      (todo P.collate dir book email status).map fun x => (.int x.1, .text x.2) := by
  simp only [tasksForUser, todo, List.map_flatMap, filter_map_eq_flatMap]
  refine flatMap_shown known fun u _ a account => ?_
  refine flatMap_shown shown.duties fun ut mem d duty => ?_
  refine flatMap_shown shown.tasks fun k _ name task => ?_
  obtain ⟨number, address, -⟩ : u .user_id = .int a.number ∧ u .email = a.email ∧
      u .hash_pass = Secret.cell P a.secret := by
    simpa [loginCells, Entry.cells] using account
  obtain ⟨linked, owner⟩ : ut .task_id = .text d.task ∧ ut .task_owner_id = d.owner := by
    simpa [dutyCells, Duty.cells] using duty
  obtain ⟨id, kept⟩ : k .task_id = .text name ∧ k .task_status = book.status name := by
    simpa [taskCells, Book.cells] using task
  obtain ⟨n, is⟩ := int_cell (c := UserTaskCol.task_owner_id) rfl rfl db.sound.userTask_typed mem
  rw [owner] at is
  have owns : eqValue P.collate (.int a.number) (.int n) = some true ↔
      Value.int n = .int a.number := by
    simp [eqValue, eq_comm]
  have listed : listing (u, ut, k) = (.int a.number, .text name) := Prod.ext number id
  simp only [Cond.hits_iff, Cond.eval, taskJoinRow, number, address, linked, owner, id, kept,
    is, owns, eqValue_text, Entry.named, decide_eq_true_eq]
  split
  · rw [List.map_singleton, List.map_singleton, listed]
  · rfl

theorem mem_todo {collate : String → String} {dir : List Entry} {book : Book}
    {email status : JsVal} {n : Int} {id : String} :
    (n, id) ∈ todo collate dir book email status ↔
      (∃ a ∈ dir, a.number = n ∧ a.named collate email = true) ∧
      (∃ d ∈ book.duties, d.owner = .int n ∧ collate id = collate d.task) ∧
      id ∈ book.tasks ∧ eqLit collate (book.status id) status.lit = some true := by
  simp only [todo, List.mem_flatMap, List.mem_map, List.mem_filter, decide_eq_true_eq,
    Prod.mk.injEq]
  constructor
  · rintro ⟨a, account, d, duty, id, ⟨task, owner, same, named, state⟩, rfl, rfl⟩
    exact ⟨⟨a, account, rfl, named⟩, ⟨d, duty, owner, same⟩, task, state⟩
  · rintro ⟨⟨a, account, rfl, named⟩, ⟨d, duty, owner, same⟩, task, state⟩
    exact ⟨a, account, d, duty, id, ⟨task, owner, same, named, state⟩, rfl, rfl⟩

/-- What the directory and the book make of each log, the tables show. -/
theorem tasks_refine : Refines P Request.Tidy (Books P)
    (fun c s r a => (registering c s r a.1, booking P c s r a.2)) ([], {})
    (fun db a => ShowsDirectory db a.1 ∧ ShowsBook db a.2) :=
  (directory_refines.narrow handler_books fun _ _ allowed => allowed.enrols).both book_refines

/-- At a look-up of tasks the tables show the directory and the book of the log before it. -/
theorem todo_answered {ls : List (Label P)}
    (tidy : ∀ l ∈ ls, Admissible P Request.Tidy l) {front rest : List Event} {c : Ctx}
    {email status : JsVal} {rows : List (Row UserCol × Row UserTaskCol × Row TaskCol)}
    (scalars : email.isScalar = true ∧ status.isScalar = true)
    (logged : (run (server P) ls (startUp P)).world.log =
      front ++ .completed c (.getTasksForUser email status) rows :: rest) :
    rows.map listing = (todo P.collate (directory front) (bookOf P front) email status).map
      fun x => (.int x.1, .text x.2) := by
  obtain ⟨-, db, db', shown, he⟩ := tasks_refine.answered tidy logged
  rw [replay_both] at shown
  obtain ⟨q, named, he⟩ := Option.bind_eq_some_iff.mp he
  obtain ⟨q', marked, he⟩ := Option.bind_eq_some_iff.mp he
  rw [JsVal.escape_scalar scalars.1] at named
  rw [JsVal.escape_scalar scalars.2] at marked
  cases named
  cases marked
  cases he
  exact todo_eq shown.1 shown.2 email status

end Lists

section History

/-- The duty that a completed statement enters. -/
def Event.duty : Event → Option Duty
  | .completed _ (.updateUserTaskTable taskID owner _) _ =>
    some ⟨cut 100 taskID, store UserTaskCol.task_owner_id owner.lit.value⟩
  | _ => none

/-- A statement has linked the task with this id to the account with this number. -/
def LinkedTo (P : Platform) (log : List Event) (id : String) (n : Int) : Prop :=
  ∃ e ∈ log, ∃ d ∈ e.duty, P.collate id = P.collate d.task ∧ d.owner = .int n

instance (log : List Event) (id : String) (n : Int) : Decidable (LinkedTo P log id n) :=
  inferInstanceAs (Decidable (∃ e ∈ log, ∃ d ∈ e.duty, _ ∧ _))

/-- The status that the last completed statement about a task with this id has given it. -/
def lastStatus (P : Platform) (log : List Event) (id : String) : Value := (bookOf P log).status id

/-- The duties are the links of the log. -/
theorem duties_eq (log : List Event) : (bookOf P log).duties = log.filterMap Event.duty := by
  induction log using List.reverseRecOn with
  | nil => rfl
  | append_singleton log e ih =>
    rw [bookOf, replay_append, List.filterMap_append, ← ih]
    cases e with
    | completed c s r =>
      cases s with
      | updateUserTaskTable => rfl
      | _ => exact (List.append_nil _).symm
    | _ => exact (List.append_nil _).symm

/-- An id that is the same for the collation has the same status. -/
theorem status_congr {id id' : String} (same : P.collate id = P.collate id') (log : List Event) :
    (bookOf P log).status id = (bookOf P log).status id' := by
  have names : ∀ v : JsVal, v.names P.collate id = v.names P.collate id' := by
    intro v
    rw [JsVal.names, JsVal.names]
    cases v.lit <;> simp [eqLit, same]
  induction log using List.reverseRecOn with
  | nil => rfl
  | append_singleton log e ih =>
    rw [bookOf, replay_append]
    cases e with
    | completed c s r =>
      cases s with
      | createTask task =>
        change (if _ then _ else _) = if _ then _ else _
        rw [same, ih]
      | removeTask text v =>
        change (if _ then _ else _) = if _ then _ else _
        rw [names, ih]
      | updateTask status v =>
        change (if _ then _ else _) = if _ then _ else _
        rw [names, ih]
      | _ => exact ih
    | _ => exact ih

/-- What is linked is in the book of tasks. -/
theorem linked_noted {db : Database P.collate} {log : List Event}
    (shown : ShowsBook db (bookOf P log)) {id : String} {n : Int} (linked : LinkedTo P log id n) :
    ∃ id', P.collate id' = P.collate id ∧ id' ∈ (bookOf P log).tasks := by
  obtain ⟨e, logged, d, duty, same, -⟩ := linked
  have entered : d.cells ∈ db.tables.userTask.map dutyCells := by
    rw [shown.duties, duties_eq]
    exact List.mem_map_of_mem (List.mem_filterMap.mpr ⟨e, logged, duty⟩)
  obtain ⟨ut, mem, cells⟩ := List.mem_map.mp entered
  have task : ut .task_id = .text d.task := congrArg Prod.fst cells
  obtain ⟨k, known, found⟩ := (db.sound.userTask_task ut mem).resolve_left fun null => by
    rw [task] at null
    cases null
  have noted : taskCells k ∈ (bookOf P log).tasks.map (bookOf P log).cells :=
    shown.tasks ▸ List.mem_map_of_mem known
  obtain ⟨id', there, cells'⟩ := List.mem_map.mp noted
  have named : k .task_id = .text id' := congrArg Prod.fst cells'.symm
  rw [task, named, eqValue_text] at found
  exact ⟨id', (same.trans found).symm, there⟩

end History

/-- A check that is enough for a request to be tidy. -/
def Request.tidily (q : Request) : Bool :=
  q.plainly && decide (q.ListsScalars "taskOwner" "user_id" ∧ q.ListsScalars "users" "email")

theorem tidy_of_tidily {q : Request} (tidily : q.tidily = true) : q.Tidy := by
  obtain ⟨plainly, lists⟩ := Bool.and_eq_true_iff.mp tidily
  obtain ⟨owners, emails⟩ := of_decide_eq_true lists
  exact ⟨Request.plain_of_plainly plainly, owners, emails⟩

/-- Ann asks for the tasks she has to do. -/
def annAsks : List (Label samplePlatform) :=
  annsDay.take 10 ++ [
    .arrive { sid := 0, route := .tasks, body := .obj [("status", .str "incomplete"),
      ("users", .arr [.obj [("email", .str "ann@x")]])] }, .settle 0 false]

theorem annAsks_tidy : ∀ l ∈ annAsks, Admissible samplePlatform Request.Tidy l :=
  admissible_of_passes (fun _ => tidy_of_tidily) (by decide +kernel)

def Event.findsTasks (email status : String) : Event → Bool
  | .completed _ (.getTasksForUser (.str e) (.str s)) _ => e = email ∧ s = status
  | _ => false

theorem found_at {log : List Event} {i : Nat} {email status : String}
    (found : log[i]?.any (Event.findsTasks email status) = true) :
    ∃ c rows, log = log.take i ++
      .completed c (.getTasksForUser (.str email) (.str status)) rows :: log.drop (i + 1) := by
  obtain ⟨e, split, test⟩ := split_at found
  unfold Event.findsTasks at test
  split at test
  · obtain ⟨rfl, rfl⟩ := of_decide_eq_true test
    exact ⟨_, _, split⟩
  · cases test

end OneRoof
