import OneRoof.Runs

/-!
# Whether an assigned task is found again

`addTask` links a task to its owner by `user_id`; `POST /api/tasks` looks for the
tasks of an email. The row the client holds for an owner is enough to find a
task exactly when that row has an email.
-/

namespace OneRoof

open Sql Async

variable {P : Platform}

theorem rowJs_email (u : Row UserCol) : (rowJs u).prop "email" = some (cellJs (u .email)) := rfl

theorem rowJs_toStr (u : Row UserCol) : (rowJs u).toStr = some "[object Object]" := rfl

theorem cellJs_toStr (v : Value) : ∃ s, (cellJs v).toStr = some s := by
  cases v <;> exact ⟨_, rfl⟩

/-- Of the three rows of a join the task's columns are the ones that are sent. -/
theorem joined_task (u : Row UserCol) (ut : Row UserTaskCol) (t : Row TaskCol) (c : TaskCol) :
    (JsVal.obj (joined (joined (fieldsOf u) (fieldsOf ut)) (fieldsOf t))).get (Columns.name c) =
      cellJs (t c) := by
  cases c <;> rfl

/-- The entry of an answer that shows task `t`. -/
def ShowsTask (t : Row TaskCol) (o : JsVal) : Prop :=
  ∀ c : TaskCol, o.get (Columns.name c) = cellJs (t c)

/-- The request is served on the tables of `σ` and its answer has one list, for
the one user asked about, with an entry that shows `t`. -/
def TaskListed (σ : Config P) (q : Request) (t : Row TaskCol) : Prop :=
  ∃ c entries user,
    .answered c (.json (.arr [.arr entries])) user ∈
      (run (server P) [.arrive q, .settle σ.pending.length false] σ).world.log ∧
    c.rid = σ.world.nextReq ∧ ∃ o ∈ entries, ShowsTask t o

/-- `POST /api/tasks` for one user, as the client has the row, and one status. -/
structure AsksFor (q : Request) (u : Row UserCol) (status : Value) : Prop where
  route : q.route = .tasks
  users : q.body.get "users" = .arr [rowJs u]
  status : q.body.get "status" = cellJs status

/-- What a cell becomes in the place of a `?`. -/
def cellLit : Value → Lit
  | .null => .null
  | .int n => .num n
  | .text s => .str s

theorem cellJs_escape (v : Value) : (cellJs v).escape = some [.lit (cellLit v)] := by
  cases v <;> rfl

theorem exec_getTasksForUser (e v : Value) (db : Database P.collate) :
    exec P.collate (.getTasksForUser (cellJs e) (cellJs v)) db =
      some (tasksForUser P.collate (.eq (.u .email) (cellLit e))
        (.eq (.t .task_status) (cellLit v)) db.tables, db) := by
  simp only [exec, cellJs_escape, whereEq]
  rfl

/-- The handler sends one query and answers when it is there. -/
theorem handler_tasks {c : Ctx} {u : Row UserCol} {v : Value} (asks : AsksFor c.req u v) :
    handler P c = gatherTasks c.user 1 [(cellJs (u .email), cellJs v)] := by
  obtain ⟨e, he⟩ := cellJs_toStr (u .email)
  obtain ⟨s, hs⟩ := cellJs_toStr v
  have hargs : taskArguments (cellJs v) (rowJs u) = some (cellJs (u .email), cellJs v) := by
    simp [taskArguments, rowJs_toStr, rowJs_email, he, hs]
  have hstr : (JsVal.arr [rowJs u]).toStr = some "[object Object]" := rfl
  simp only [handler, route, asks.route, tasks, asks.users, asks.status, hstr, Prog.attempt,
    List.mapM_cons, List.mapM_nil, hargs]
  rfl

/-- The events one such request adds to the log. -/
theorem tasks_log {σ : Config P} (fresh : Fresh σ) {q : Request} {u : Row UserCol} {v : Value}
    (asks : AsksFor q u v) :
    let rows := tasksForUser P.collate (.eq (.u .email) (cellLit (u .email)))
      (.eq (.t .task_status) (cellLit v)) σ.world.db.tables
    (run (server P) [.arrive q, .settle σ.pending.length false] σ).world.log =
      σ.world.log ++ [.completed (σ.world.context q)
          (.getTasksForUser (cellJs (u .email)) (cellJs v)) rows,
        .answered (σ.world.context q) (.json (.arr [taskRowsJs rows])) (σ.world.store q.sid)] := by
  intro rows
  have asks' : AsksFor (σ.world.context q).req u v := asks
  rw [serve_single (handler_tasks asks') (exec_getTasksForUser (u .email) v σ.world.db)]
  have hg := fresh.gathered σ.world.nextReq (Nat.le_refl _)
  have ha := fresh.answered (Nat.le_refl σ.world.nextReq)
  simp [Prog.thenRun, enter, server, World.perform, World.answer, World.complete, World.next,
    World.context, hg, ha, Event.answers, rows]

theorem taskListed_iff_mem {σ : Config P} (fresh : Fresh σ) {q : Request} {u : Row UserCol}
    {t : Row TaskCol} (asks : AsksFor q u (t .task_status)) :
    TaskListed σ q t ↔ ∃ x ∈ tasksForUser P.collate (.eq (.u .email) (cellLit (u .email)))
        (.eq (.t .task_status) (cellLit (t .task_status))) σ.world.db.tables,
      ShowsTask t (.obj (joined (joined (fieldsOf x.1) (fieldsOf x.2.1)) (fieldsOf x.2.2))) := by
  unfold TaskListed
  rw [tasks_log fresh asks]
  constructor
  · rintro ⟨c, entries, user, mem, hc, o, ho, shows⟩
    rcases List.mem_append.mp mem with old | new
    · have := fresh.answered (Nat.le_refl σ.world.nextReq)
      rw [List.any_eq_false] at this
      exact absurd (this _ old) (by simp [Event.answers, hc])
    · simp only [List.mem_cons, reduceCtorEq, false_or, List.not_mem_nil, or_false,
        Event.answered.injEq, Answer.json.injEq, JsVal.arr.injEq, List.cons.injEq,
        taskRowsJs, and_true] at new
      rw [new.2.1] at ho
      obtain ⟨x, hx, rfl⟩ := List.mem_map.mp ho
      exact ⟨x, hx, shows⟩
  · rintro ⟨x, hx, shows⟩
    exact ⟨σ.world.context q, _, σ.world.store q.sid,
      List.mem_append_right _ (List.mem_cons_of_mem _ List.mem_cons_self), rfl, _,
      List.mem_map_of_mem hx, shows⟩

/-- A row of `tblUSER_TASK` with the owner and the task it names. -/
structure Assigned (collate : String → String) (db : Tables) (ut : Row UserTaskCol)
    (u : Row UserCol) (t : Row TaskCol) : Prop where
  row : ut ∈ db.userTask
  user : u ∈ db.user
  task : t ∈ db.task
  owner : eqValue collate (ut .task_owner_id) (u .user_id) = some true
  names : eqValue collate (ut .task_id) (t .task_id) = some true

theorem taskListed_iff {σ : Config P} (fresh : Fresh σ) {q : Request} {ut : Row UserTaskCol}
    {u : Row UserCol} {t : Row TaskCol} (assigned : Assigned P.collate σ.world.db.tables ut u t)
    (asks : AsksFor q u (t .task_status)) : TaskListed σ q t ↔ u .email ≠ .null := by
  have sound := σ.world.db.sound
  rw [taskListed_iff_mem fresh asks]
  constructor
  · rintro ⟨x, hx, -⟩ none
    simp [tasksForUser, none, cellLit, Cond.hits, Cond.eval, eqLit_null] at hx
  · intro mail
    obtain ⟨e, he, -⟩ := (varchar_cases (c := UserCol.email) (m := 60) rfl sound.user_typed
      assigned.user).resolve_left (fun h => mail h.1)
    obtain ⟨s, hs, -⟩ := (varchar_cases (c := TaskCol.task_status) (m := 30) rfl sound.task_typed
      assigned.task).resolve_left (fun h => absurd h.2 (by decide))
    refine ⟨(u, ut, t), ?_, joined_task u ut t⟩
    have howner := assigned.owner
    have hnames := assigned.names
    rw [eqValue_symm] at howner hnames
    simp only [tasksForUser, List.mem_flatMap, List.mem_map, List.mem_filter]
    refine ⟨u, assigned.user, ut, assigned.row, t, ⟨assigned.task, ?_⟩, rfl⟩
    simp [howner, hnames, Cond.hits, Cond.eval, taskJoinRow, he, hs, cellLit, eqLit_text]

/-- Every row of `tblUSER_TASK` has an owner and a task. -/
theorem exists_assigned (db : Database P.collate) {ut : Row UserTaskCol}
    (row : ut ∈ db.tables.userTask) : ∃ u t, Assigned P.collate db.tables ut u t := by
  obtain ⟨u, hu, owner⟩ := (db.sound.userTask_owner ut row).resolve_left fun h => by
    have := db.sound.userTask_typed ut row .task_owner_id (Columns.mem_all _)
    simp [h, fits, Columns.nullable] at this
  obtain ⟨t, ht, names⟩ := (db.sound.userTask_task ut row).resolve_left fun h => by
    have := db.sound.userTask_typed ut row .task_id (Columns.mem_all _)
    simp [h, fits, Columns.nullable] at this
  exact ⟨u, t, row, hu, ht, owner, names⟩

/-- The routes that send an update of `tblUSER`. -/
def Route.setsProfile : Route → Bool
  | .upload | .updateDispl | .updatePass | .updatePaymentMethod | .updatePaymentUser
  | .updateMobile => true
  | _ => false

theorem Sends.setsProfile {c : Ctx} {s : Stmt} (sends : Sends P c s)
    (writes : s.setsUser ≠ none) : c.req.route.setsProfile = true := by
  cases sends with
  | select reads => cases s <;> simp_all [Stmt.isSelect, Stmt.setsUser]
  | updateProfPic route => rw [route]; rfl
  | updateUserDisplayName route => rw [route]; rfl
  | updateUserPass route => rw [route]; rfl
  | updateUserPaymentMethod route => rw [route]; rfl
  | updateUserPaymentUsername route => rw [route]; rfl
  | updateMobile route => rw [route]; rfl
  | _ => exact absurd rfl writes

/-- Whoever a task is assigned to in this step has an email. -/
def AssignsToMail (σ : Config P) : Label P → Prop
  | .settle i false => ∀ p taskID owner creator row, σ.pending[i]? = some p →
      p.stmt = .updateUserTaskTable taskID owner creator →
      userTaskRow P.collate σ.world.db.next.userTask taskID owner creator = some row →
      ∀ u ∈ σ.world.db.tables.user,
        eqValue P.collate (row .task_owner_id) (u .user_id) = some true → u .email ≠ .null
  | _ => True

/-- A step of signups, logins, house, task and status requests in which a task is
assigned only to owners with an email. -/
structure MailedStep (σ : Config P) (l : Label P) : Prop where
  own : Label.own P l
  route : ∀ q, l = .arrive q → q.route.setsProfile = false
  assigns : AssignsToMail σ l

/-- Every owner of a task has an email. -/
def OwnersMailed (collate : String → String) (t : Tables) : Prop :=
  ∀ ut ∈ t.userTask, ∀ u ∈ t.user,
    eqValue collate (ut .task_owner_id) (u .user_id) = some true → u .email ≠ .null

/-- A new account is nobody's owner yet. -/
theorem new_user_owns_nothing {db : Database P.collate} (db' : Database P.collate)
    {row : Row UserCol} (inserted : db'.tables.user = db.tables.user ++ [row])
    {ut : Row UserTaskCol} (hut : ut ∈ db.tables.userTask) :
    eqValue P.collate (ut .task_owner_id) (row .user_id) ≠ some true := by
  intro owner
  obtain ⟨u, t, old⟩ := exists_assigned db hut
  have key := db'.sound.user_key
  have typed := db'.sound.user_typed
  rw [inserted] at key typed
  obtain ⟨n, hn⟩ := int_cell (c := UserTaskCol.task_owner_id) rfl rfl db.sound.userTask_typed hut
  obtain ⟨m, hm⟩ := int_cell (c := UserCol.user_id) rfl rfl typed
    (List.mem_append_left [row] old.user)
  obtain ⟨k, hk⟩ := int_cell (c := UserCol.user_id) rfl rfl typed
    (List.mem_append_right db.tables.user (List.mem_singleton_self row))
  have howner := old.owner
  simp only [hn, hm, hk, eqValue, Option.some.injEq, decide_eq_true_eq] at owner howner
  refine (List.pairwise_append.mp key).2.2 u old.user row (List.mem_singleton_self row) ?_
  simp [hm, hk, eqValue, ← owner, ← howner]

theorem step_ownersMailed (σ : Config P) (l : Label P) (meets : MailedStep σ l)
    (sent : Sent (fun q => q.route.setsProfile = false) σ)
    (mailed : OwnersMailed P.collate σ.world.db.tables) :
    OwnersMailed P.collate (step (server P) l σ).world.db.tables := by
  rcases step_db_cases l meets.own σ with same | ⟨i, p, r, rfl, hp, he⟩
  · rw [same]
    exact mailed
  obtain ⟨route, sends⟩ := (sent p (List.mem_of_getElem? hp)).1
  have effect := exec_effect he
  have assigns := meets.assigns
  generalize step (server P) (.settle i false) σ = σ' at he effect ⊢
  generalize ht : σ'.world.db.tables = t at effect ⊢
  generalize σ'.world.db.next = n at effect
  generalize hs : p.stmt = s at effect sends
  cases effect with
  | setUser writes => exact absurd (sends.setsProfile (by simp [writes])) (by simp [route])
  | createUser filled =>
    intro ut hut u hu owner
    rcases List.mem_append.mp hu with old | new
    · exact mailed ut hut u old owner
    · rw [List.mem_singleton.mp new] at owner
      exact absurd owner (new_user_owns_nothing σ'.world.db (by rw [ht]) hut)
  | updateUserTaskTable filled =>
    intro ut hut u hu owner
    rcases List.mem_append.mp hut with old | new
    · exact mailed ut old u hu owner
    · rw [List.mem_singleton.mp new] at owner
      exact assigns p _ _ _ _ hp hs filled u hu owner
  | _ => exact mailed

theorem run_ownersMailed {ls : List (Label P)} {σ : Config P}
    (along : Along (server P) MailedStep ls σ)
    (sent : Sent (fun q => q.route.setsProfile = false) σ)
    (mailed : OwnersMailed P.collate σ.world.db.tables) :
    OwnersMailed P.collate (run (server P) ls σ).world.db.tables :=
  (run_invariant MailedStep (fun σ => Sent (fun q => q.route.setsProfile = false) σ ∧
      OwnersMailed P.collate σ.world.db.tables)
    (fun σ l meets h => ⟨step_sent l meets.route σ h.1, step_ownersMailed σ l meets h.1 h.2⟩)
    along ⟨sent, mailed⟩).2

/-- In every reachable state an assigned task is found through the row of its
owner exactly when that row has an email, and in every run that assigns tasks only
to owners with an email every assigned task is found. -/
theorem assigned_task_found (P : Platform) :
    (∀ σ, Reachable P σ → ∀ ut ∈ σ.world.db.tables.userTask,
      (∃ u t, Assigned P.collate σ.world.db.tables ut u t) ∧
      ∀ u t q, Assigned P.collate σ.world.db.tables ut u t → AsksFor q u (t .task_status) →
        (TaskListed σ q t ↔ u .email ≠ .null)) ∧
    ∀ ls, Along (server P) MailedStep ls (startUp P) →
      ∀ ut u t q, Assigned P.collate (run (server P) ls (startUp P)).world.db.tables ut u t →
        AsksFor q u (t .task_status) → TaskListed (run (server P) ls (startUp P)) q t := by
  refine ⟨fun σ reachable ut hut => ⟨exists_assigned _ hut, fun u t q assigned asks =>
    taskListed_iff reachable.fresh assigned asks⟩, fun ls along ut u t q assigned asks => ?_⟩
  refine (taskListed_iff (run_fresh ls _ startUp_fresh) assigned asks).mpr ?_
  exact run_ownersMailed along (startUp_sent _) (fun _ h => absurd h List.not_mem_nil)
    ut assigned.row u assigned.user assigned.owner

section Samples

/-- A chore for the first user. -/
def choreForFirst : Request where
  sid := 0
  route := .addTask
  body := .obj [("taskName", .str "dishes"), ("taskType", .str "Chore"),
    ("taskDueDate", .str "today"), ("taskOwner", .arr [.obj [("user_id", .num 1)]]),
    ("priority", .str "low")]

def askTasks (u : Row UserCol) (t : Row TaskCol) : Request where
  sid := 0
  route := .tasks
  body := .obj [("users", .arr [rowJs u]), ("status", cellJs (t .task_status))]

/-- Somebody signs up with an email and gets a chore. -/
def signupThenTask : List (Label samplePlatform) :=
  [.arrive { sid := 0, route := .signup, body := .obj [("email", .str "ann@x"),
      ("password", .str "pw"), ("confirmPass", .str "pw"), ("displayName", .str "Ann")] },
    .settle 0 false, .settle 0 false, .settle 0 false, .settle 0 false, .settle 0 false,
    .arrive choreForFirst, .settle 0 false, .settle 0 false, .settle 0 false]

def sampleProfile : Profile := ⟨"7", some "Ann", "Ann", "", some "ann@x", by decide⟩

/-- Somebody logs in through Facebook and gets a chore. -/
def facebookThenTask : List (Label samplePlatform) :=
  [.arrive { sid := 0, route := .facebookCallback (some (sampleProfile, "token")) },
    .settle 0 false, .settle 0 false, .settle 0 false,
    .arrive choreForFirst, .settle 0 false, .settle 0 false, .settle 0 false]

theorem signupThenTask_mailed :
    Along (server samplePlatform) MailedStep signupThenTask (startUp samplePlatform) := by
  have step : ∀ (σ : Config samplePlatform) l, Label.own samplePlatform l →
      (∀ q, l = .arrive q → q.route.setsProfile = false) →
      (∀ u ∈ σ.world.db.tables.user, u .email ≠ .null) → MailedStep σ l := by
    intro σ l own route mailed
    refine ⟨own, route, ?_⟩
    unfold AssignsToMail
    split
    · exact fun _ _ _ _ _ _ _ _ u hu _ => mailed u hu
    · trivial
  refine ⟨?_, ?_, ?_, ?_, ?_, ?_, ?_, ?_, ?_, ?_, trivial⟩
  all_goals
    refine step _ _ trivial ?_ (by decide +kernel)
    intro q h
    cases h <;> rfl

/-- The chore of a local account is found, by either half of the theorem. -/
theorem assigned_task_found_sample :
    ∃ ut u t q, Assigned samplePlatform.collate
        (run (server samplePlatform) signupThenTask (startUp samplePlatform)).world.db.tables
        ut u t ∧ AsksFor q u (t .task_status) ∧ u .email ≠ .null ∧
      TaskListed (run (server samplePlatform) signupThenTask (startUp samplePlatform)) q t := by
  have reachable : Reachable samplePlatform
      (run (server samplePlatform) signupThenTask (startUp samplePlatform)) :=
    ⟨signupThenTask, by decide, rfl⟩
  obtain ⟨ut, hut⟩ := List.exists_mem_of_ne_nil (run (server samplePlatform) signupThenTask
    (startUp samplePlatform)).world.db.tables.userTask (by decide +kernel)
  obtain ⟨⟨u, t, assigned⟩, found_iff⟩ :=
    (assigned_task_found samplePlatform).1 _ reachable ut hut
  have found := (assigned_task_found samplePlatform).2 _ signupThenTask_mailed ut u t
    (askTasks u t) assigned ⟨rfl, rfl, rfl⟩
  exact ⟨ut, u, t, askTasks u t, assigned, ⟨rfl, rfl, rfl⟩,
    (found_iff u t _ assigned ⟨rfl, rfl, rfl⟩).mp found, found⟩

theorem unmailed_task_lost {σ : Config P} (reachable : Reachable P σ)
    (some_task : σ.world.db.tables.userTask ≠ [])
    (noMail : ∀ u ∈ σ.world.db.tables.user, u .email = .null) :
    ∃ σ ut u t q, Reachable P σ ∧ Assigned P.collate σ.world.db.tables ut u t ∧
      AsksFor q u (t .task_status) ∧ ¬ TaskListed σ q t := by
  obtain ⟨ut, hut⟩ := List.exists_mem_of_ne_nil _ some_task
  obtain ⟨u, t, assigned⟩ := exists_assigned _ hut
  have asks : AsksFor (askTasks u t) u (t .task_status) := ⟨rfl, rfl, rfl⟩
  exact ⟨σ, ut, u, t, askTasks u t, reachable, assigned, asks, fun listed =>
    (taskListed_iff reachable.fresh assigned asks).mp listed (noMail u assigned.user)⟩

/-- The chore of a Facebook account is never found. -/
theorem facebook_task_lost :
    ∃ σ ut u t q, Reachable samplePlatform σ ∧
      Assigned samplePlatform.collate σ.world.db.tables ut u t ∧
      AsksFor q u (t .task_status) ∧ ¬ TaskListed σ q t :=
  unmailed_task_lost ⟨facebookThenTask, by decide, rfl⟩ (by decide +kernel) (by decide +kernel)

end Samples

end OneRoof
