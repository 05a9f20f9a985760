import OneRoof.Safety

/-!
# Requests without a session user

The router is mounted before the check for a login, so each handler is on its
own. Most of them look at `req.user` before they write and throw; six send a
write first. Such a request leaves the tables as they are exactly when that one
write is refused or finds nothing to change.
-/

namespace OneRoof

open Sql Async Async.Prog Prog

variable {P : Platform}

/-- The write a handler sends before it looks at the session user. -/
def opening (req : Request) : Option Stmt :=
  match req.route with
  | .createHouse => some (.createHouse (req.body.get "setHouseName") 100 (houseCode req.draws))
  | .createGroup => some (.createGroup (req.body.get "group_name") (req.body.get "group_descr"))
  | .addTask => some (.createTask (newTask req))
  | .deleteComment => some (.deleteComment (req.body.get "comment_id"))
  | .deleteTask => (req.body.get "id").toStr.map
      fun _ => .removeTask req.clock (req.body.get "id")
  | .updateTask => some (.updateTask (req.body.get "taskStatus") (req.body.get "taskId"))
  | _ => none

/-- The routes that log somebody in. -/
def Route.authenticates : Route → Bool
  | .signup | .login | .facebook | .facebookCallback _ => true
  | _ => false

/-- A write that finds nothing to change: no comment satisfies its condition, or
every task that does has the new values already. -/
inductive Idle (collate : String → String) (t : Tables) : Stmt → Prop
  | comments {id v : JsVal} {q : Cond CommentCol} (given : id.bare = some v)
      (parsed : whereEq (column "tblCOMMENT") .comment_id v.escape = some q)
      (missed : ∀ r ∈ t.comment, q.hits collate r = false) : Idle collate t (.deleteComment id)
  | tasks {s : Stmt} {sets : List (TaskCol × Rhs TaskCol)} {q : Cond TaskCol}
      (writes : s.setsTask = some (sets, q))
      (same : ∀ r ∈ t.task, q.hits collate r = true → assign collate sets r = r) :
      Idle collate t s

/-- The first write is refused or finds nothing to change. -/
def Harmless (db : Database P.collate) (req : Request) : Prop :=
  ∀ s, opening req = some s → exec P.collate s db = none ∨ Idle P.collate db.tables s

/-- Whatever becomes of its statements, when all of them have settled the tables
are what they were. -/
def Inert (w : World P) (q : Request) : Prop :=
  ∀ ls, Settles ls → (run (server P) (.arrive q :: ls) ⟨w, []⟩).pending = [] →
    (run (server P) (.arrive q :: ls) ⟨w, []⟩).world.db.tables = w.db.tables

theorem idle_setsTask {t : Tables} {s : Stmt} (idle : Idle P.collate t s)
    (other : ∀ id, s ≠ .deleteComment id) : s.setsTask ≠ none := by
  cases idle with
  | comments => exact absurd rfl (other _)
  | tasks writes => simp [writes]

theorem opening_kind {req : Request} {s : Stmt} (opens : opening req = some s) :
    s.isSelect = false ∧ s.setsUser = none ∧ ∀ h u, s ≠ .removeUserHouse h u := by
  unfold opening at opens
  split at opens
  case h_5 =>
    obtain ⟨_, -, rfl⟩ := Option.map_eq_some_iff.mp opens
    exact ⟨rfl, rfl, by simp⟩
  all_goals
    cases opens
    try exact ⟨rfl, rfl, by simp⟩

/-- A completed opening write left everything alone exactly when it was idle. -/
theorem opening_same_iff {req : Request} {s : Stmt} (opens : opening req = some s)
    {db db' : Database P.collate} {r : s.Reply} (he : exec P.collate s db = some (r, db')) :
    (db'.tables = db.tables ↔ Idle P.collate db.tables s) ∧
      (Idle P.collate db.tables s → db'.next = db.next) := by
  have effect := exec_effect he
  have grown : db'.tables ≠ db.tables → (∀ id, s ≠ .deleteComment id) → s.setsTask = none →
      (db'.tables = db.tables ↔ Idle P.collate db.tables s) ∧
        (Idle P.collate db.tables s → db'.next = db.next) := fun changed other kept =>
    ⟨⟨fun h => absurd h changed, fun idle => absurd kept (idle_setsTask idle other)⟩,
      fun idle => absurd kept (idle_setsTask idle other)⟩
  obtain ⟨noSelect, noUser, noLeave⟩ := opening_kind opens
  generalize db'.tables = t at effect grown ⊢
  generalize db'.next = n at effect grown ⊢
  cases effect with
  | select reads => simp [noSelect] at reads
  | setUser writes => simp [noUser] at writes
  | removeUserHouse => exact absurd rfl (noLeave _ _)
  | @setTask _ sets q writes =>
    have same : { db.tables with task := update P.collate q sets db.tables.task } = db.tables ↔
        update P.collate q sets db.tables.task = db.tables.task :=
      ⟨congrArg Tables.task, fun h => by rw [h]⟩
    rw [same, update_eq_self_iff]
    refine ⟨⟨.tasks writes, fun idle => ?_⟩, fun _ => rfl⟩
    cases idle with
    | comments => cases writes
    | tasks writes' h =>
      cases writes.symm.trans writes'
      exact h
  | @deleteComment id v q given parsed =>
    have same : { db.tables with comment := delete P.collate q db.tables.comment } =
        db.tables ↔ delete P.collate q db.tables.comment = db.tables.comment :=
      ⟨congrArg Tables.comment, fun h => by rw [h]⟩
    rw [same, delete_eq_self_iff]
    refine ⟨⟨.comments given parsed, fun idle => ?_⟩, fun _ => rfl⟩
    cases idle with
    | tasks writes => cases writes
    | comments given' parsed' missed =>
      cases given.symm.trans given'
      cases parsed.symm.trans parsed'
      exact missed
  | createUser => exact grown (fun h => by simpa using congrArg Tables.user h) (by simp) rfl
  | createHouse => exact grown (fun h => by simpa using congrArg Tables.house h) (by simp) rfl
  | createGroup => exact grown (fun h => by simpa using congrArg Tables.group h) (by simp) rfl
  | addUserToHouse =>
    exact grown (fun h => by simpa using congrArg Tables.houseUser h) (by simp) rfl
  | addUserToGroup =>
    exact grown (fun h => by simpa using congrArg Tables.userGroups h) (by simp) rfl
  | createTask => exact grown (fun h => by simpa using congrArg Tables.task h) (by simp) rfl
  | updateUserTaskTable =>
    exact grown (fun h => by simpa using congrArg Tables.userTask h) (by simp) rfl
  | updateBillTable => exact grown (fun h => by simpa using congrArg Tables.bill h) (by simp) rfl
  | updateChoreTable => exact grown (fun h => by simpa using congrArg Tables.chore h) (by simp) rfl
  | addComment => exact grown (fun h => by simpa using congrArg Tables.comment h) (by simp) rfl

theorem opening_same {req : Request} {s : Stmt} (opens : opening req = some s)
    {db db' : Database P.collate} {r : s.Reply} (he : exec P.collate s db = some (r, db'))
    (idle : Idle P.collate db.tables s) : db' = db :=
  Database.ext ((opening_same_iff opens he).1.mpr idle) ((opening_same_iff opens he).2 idle)

/-- Every statement that completes leaves the database as it is. -/
def still (db : Database P.collate) : Discipline (server P) where
  Good w := w.db = db
  Le _ _ := True
  Allowed _ s _ := ∀ r db', exec P.collate s db = some (r, db') → db' = db
  Permit _ _ _ := True
  refl _ := trivial
  trans _ _ := trivial
  mono _ h := h
  exec_good := by
    intro c s w r w' good allowed he
    obtain ⟨⟨r', db'⟩, hx, hw⟩ := Option.map_eq_some_iff.mp he
    cases hw
    exact ⟨allowed _ _ (good ▸ hx), trivial⟩
  refuse_good good := ⟨good, trivial⟩
  perform_good := by
    intro c a w good _
    exact ⟨(perform_db c a w).trans good, trivial⟩

/-- A program that only selects is safe. -/
theorem selects_safe (db : Database P.collate) {c : Ctx} {prog : Prog}
    (selects : prog.Issues (fun s => s.isSelect = true)) (w : World P) :
    (still db).Safe c prog w :=
  issues_safe selects (fun _ _ reads _ _ he => exec_select reads he) (fun _ _ => trivial) w

/-- Without an opening write, a request without a user only selects. -/
theorem selects_of_sends {c : Ctx} (nobody : c.user = none) (noOpening : opening c.req = none)
    (noLogin : c.req.route.authenticates = false) {s : Stmt} (sends : Sends P c s) :
    s.isSelect = true := by
  cases sends with
  | select reads => exact reads
  | updateProfPic _ user => simp [nobody] at user
  | updateUserDisplayName _ user => simp [nobody] at user
  | updateUserPass _ user => simp [nobody] at user
  | updateUserPaymentMethod _ user => simp [nobody] at user
  | updateUserPaymentUsername _ user => simp [nobody] at user
  | updateMobile _ user => simp [nobody] at user
  | addUserToHouse user => simp [nobody] at user
  | joinGroup _ user => simp [nobody] at user
  | updateUserTaskTable _ user => simp [nobody] at user
  | removeUserHouse _ user => simp [nobody] at user
  | addComment _ user => simp [nobody] at user
  | createLocal route => simp [route, Route.authenticates] at noLogin
  | createFacebook route => simp [route, Route.authenticates] at noLogin
  | createHouse route => simp [opening, route] at noOpening
  | createGroup route => simp [opening, route] at noOpening
  | addMember route => simp [opening, route] at noOpening
  | createTask route => simp [opening, route] at noOpening
  | updateChoreTable route => simp [opening, route] at noOpening
  | updateBillTable route => simp [opening, route] at noOpening
  | removeTask route printed => simp [opening, route, printed] at noOpening
  | updateTask route => simp [opening, route] at noOpening
  | deleteComment route => simp [opening, route] at noOpening

/-- The opening writes that are inserts. -/
def Stmt.inserts : Stmt → Bool
  | .createHouse _ _ _ | .createGroup _ _ | .createTask _ => true
  | _ => false

theorem Idle.inserts {t : Tables} {s : Stmt} (idle : Idle P.collate t s) : s.inserts = false := by
  cases idle with
  | comments => rfl
  | tasks writes => cases s <;> first | rfl | cases writes

/-- The handler of an opening write waits for it, and goes on writing only after
an insert. -/
theorem handler_opening {c : Ctx} {s : Stmt} (opens : opening c.req = some s) :
    ∃ k, handler P c = .issue s k .done ∧ (k none).Issues (fun s => s.isSelect = true) ∧
      (s.inserts = false → ∀ r, (k r).Issues (fun s => s.isSelect = true)) := by
  unfold opening at opens
  split at opens
  case h_1 hr =>
    cases opens
    exact ⟨_, by simp only [handler, route, hr]; rfl, send_issues _ _, fun h => by cases h⟩
  case h_2 hr =>
    cases opens
    exact ⟨_, by simp only [handler, route, hr]; rfl, by trivial, fun h => by cases h⟩
  case h_3 hr =>
    cases opens
    exact ⟨_, by simp only [handler, route, hr]; rfl, send_issues _ _, fun h => by cases h⟩
  case h_4 hr =>
    cases opens
    exact ⟨_, by simp only [handler, route, hr]; rfl, by trivial,
      fun _ => thenRun_issues fun _ => send_issues _ _⟩
  case h_5 hr =>
    obtain ⟨text, ht, rfl⟩ := Option.map_eq_some_iff.mp opens
    exact ⟨_, by simp only [handler, route, hr, deleteTask, attempt, ht]; rfl, by trivial,
      fun _ => thenRun_issues fun _ => send_issues _ _⟩
  case h_6 hr =>
    cases opens
    exact ⟨_, by simp only [handler, route, hr]; rfl, by trivial, fun _ _ => by trivial⟩
  case h_7 => cases opens

/-- An opening write that is refused or idle leaves the database as it is. -/
theorem opening_still {db : Database P.collate} {c : Ctx} {s : Stmt}
    (opens : opening c.req = some s)
    (harmless : exec P.collate s db = none ∨ Idle P.collate db.tables s) (w : World P) :
    (still db).Safe c (handler P c) w := by
  obtain ⟨k, hk, afterNone, afterIdle⟩ := handler_opening (P := P) opens
  rw [hk]
  rcases harmless with refused | idle
  · refine ⟨fun r db' he => by simp [refused] at he, fun w' _ good' => ⟨?_, ?_⟩, trivial⟩
    · intro r w'' he
      obtain ⟨x, hx, -⟩ := Option.map_eq_some_iff.mp he
      rw [good', refused] at hx
      cases hx
    · exact selects_safe db afterNone _
  · refine ⟨fun r db' he => opening_same opens he idle, fun w' _ _ => ⟨?_, ?_⟩, trivial⟩
    · exact fun r w'' _ => selects_safe db (afterIdle idle.inserts _) _
    · exact selects_safe db afterNone _

theorem handler_still {db : Database P.collate} {c : Ctx} (nobody : c.user = none)
    (noLogin : c.req.route.authenticates = false) (harmless : Harmless db c.req) (w : World P) :
    (still db).Safe c (handler P c) w := by
  cases hs : opening c.req with
  | none =>
    exact selects_safe db ((handler_issues P c).mono fun s =>
      selects_of_sends nobody hs noLogin) w
  | some s => exact opening_still hs (harmless s hs) w

theorem still_run {w : World P} {q : Request}
    (safe : (still w.db).Safe (w.context q) (handler P (w.context q)) w.next)
    {ls : List (Label P)} (settles : Settles ls) :
    (run (server P) (.arrive q :: ls) ⟨w, []⟩).world.db = w.db := by
  have start := Discipline.enter_holds (w.context q) _ ⟨w.next, []⟩
    (Discipline.idle_holds (𝒟 := still w.db) rfl) safe
  have holds := Discipline.run_holds ls (fun l hl => by
    obtain ⟨i, lost, rfl⟩ := settles l hl
    trivial) _ start.1
  exact holds.1.1

/-- The opening write takes effect and everything after it is lost. -/
theorem opening_only {w : World P} {q : Request} {s : Stmt} (opens : opening q = some s)
    {r : s.Reply} {db : Database P.collate} (completes : exec P.collate s w.db = some (r, db)) :
    ∃ ls : List (Label P), Settles ls ∧ (run (server P) (.arrive q :: ls) ⟨w, []⟩).pending = [] ∧
      (run (server P) (.arrive q :: ls) ⟨w, []⟩).world.db = db := by
  obtain ⟨k, hk, -⟩ := handler_opening (c := w.context q) (P := P) opens
  have served := serve_single (σ := ⟨w, []⟩) hk completes
  obtain ⟨n, quiet⟩ := exists_quiescent (server P)
    (run (server P) [.arrive q, .settle 0 false] ⟨w, []⟩)
  have hrun : run (server P) (.arrive q :: .settle 0 false ::
      List.replicate n (.settle 0 true)) ⟨w, []⟩ = _ :=
    run_append _ [.arrive q, .settle 0 false] (List.replicate n (.settle 0 true)) _
  refine ⟨.settle 0 false :: List.replicate n (.settle 0 true), ?_, by rw [hrun]; exact quiet, ?_⟩
  · intro l hl
    rcases List.mem_cons.mp hl with rfl | hl
    · exact ⟨0, false, rfl⟩
    · exact ⟨0, true, List.eq_of_mem_replicate hl⟩
  · rw [hrun, lose_db,
      show run (server P) [.arrive q, .settle 0 false] ⟨w, []⟩ = _ from served, enter_db]
    rfl

/-- A request without a session user leaves every table as it is, however its
statements fare, exactly when its opening write is harmless. -/
theorem inert_iff_harmless (w : World P) (q : Request) (nobody : w.store q.sid = none)
    (noLogin : q.route.authenticates = false) : Inert w q ↔ Harmless w.db q := by
  constructor
  · intro inert s hs
    by_contra harmful
    push Not at harmful
    obtain ⟨completes, busy⟩ := harmful
    obtain ⟨⟨r, db⟩, he⟩ := Option.ne_none_iff_exists'.mp completes
    obtain ⟨ls, settles, quiet, hdb⟩ := opening_only hs he
    have same := inert ls settles quiet
    rw [hdb] at same
    exact busy ((opening_same_iff hs he).1.mp same)
  · intro harmless ls settles _
    exact congrArg Database.tables
      (still_run (handler_still (c := w.context q) nobody noLogin harmless w.next) settles)

/-- Deleting a task that is not there. -/
theorem deleteTask_inert : Inert (startUp samplePlatform).world
    { sid := 0, route := .deleteTask, body := .obj [("id", .str "none")] } := by
  refine (inert_iff_harmless (startUp samplePlatform).world _ rfl rfl).mpr fun s hs => ?_
  cases hs
  exact Or.inr (.tasks rfl fun r hr => absurd hr List.not_mem_nil)

/-- Anybody can make a house in the empty database. -/
theorem createHouse_without_user :
    Reachable samplePlatform (startUp samplePlatform) ∧
    (startUp samplePlatform).world.store 0 = none ∧
    ¬ Inert (startUp samplePlatform).world
      { sid := 0, route := .createHouse, body := .obj [("setHouseName", .str "attic")] } := by
  refine ⟨⟨[], by decide, rfl⟩, rfl, fun inert => ?_⟩
  have same := inert [.settle 0 false]
    (fun l hl => ⟨0, false, List.mem_singleton.mp hl⟩) (by decide +kernel)
  revert same
  decide +kernel

end OneRoof
