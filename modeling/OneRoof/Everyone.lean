import OneRoof.Assignees
import OneRoof.Gathering
import OneRoof.Page

/-!
# Everyone's tasks

`showEveryone` empties the list when it is called and appends what is answered, unless the
first of the lists that came is empty. The lists come in the order in which the queries
completed, so a housemate without tasks whose query is the first to complete hides the
tasks of the others; and two calls whose answers both come after the second show every task
twice.
-/

namespace OneRoof

open Sql Async Async.Prog Prog
open Feed (Click)

variable {P : Platform}

/-- The cell that a status is compared with. -/
def Status.cell : Status → Value
  | .incomplete => .text "incomplete"
  | .complete => .text "complete"

theorem Status.js_cell (status : Status) : cellJs status.cell = status.js := by
  cases status <;> rfl

/-- What `getTasksForUser` finds for the email of a member. -/
def tasksOf (collate : String → String) (t : Tables) (status : Status) (h : Row UserCol) :
    TaskRows :=
  tasksForUser collate (.eq (.u .email) (cellLit (h .email)))
    (.eq (.t .task_status) (cellLit status.cell)) t

/-- The tasks of all of them, as they are answered. -/
def everyonesTasks (collate : String → String) (t : Tables) (status : Status)
    (housemates : List (Row UserCol)) : List JsVal :=
  housemates.flatMap fun h => (taskRowsJs (tasksOf collate t status h)).items

/-- Only `showEveryone` is called, and no query is lost. -/
def Page.Move.asksEveryone : Page.Move → Bool
  | .click .showEveryone => true
  | .click _ => false
  | .serve _ lost => !lost
  | _ => true

/-- An answer to `showEveryone` after so many clicks whose first list has a task. -/
def Receipt.fills (clicks : Nat) (r : Receipt) : Bool :=
  r.after = clicks ∧ r.post.call = .showEveryone ∧ r.data.firstFilled = some true

/-- How many of the answers since the last call are of that kind. -/
def Page.fills (p : Page P) : Nat := p.received.countP (Receipt.fills p.clicks.length)

/-- A completed query has found what it finds in these tables, and none has failed. -/
def Told (db : Database P.collate) : Event → Prop
  | .completed _ s r => exec P.collate s db = some (r, db)
  | .failed _ _ => False
  | _ => True

/-- The request that `showEveryone` sends for the tasks. -/
def everyonePost (housemates : List (Row UserCol)) (status : Status) : Post :=
  ⟨.showEveryone, .tasks, .obj [("users", .arr (housemates.map rowJs)), ("status", status.js)]⟩

/-- The request for the comments of no task. -/
def commentPost : Post := ⟨.getComment, .getComment, .obj []⟩

section Queries

variable {housemates : List (Row UserCol)} {status : Status} {db : Database P.collate}

/-- A query for the tasks of a member. -/
def Query (status : Status) (s : Stmt) : Prop :=
  ∃ e : Value, s = .getTasksForUser (cellJs e) status.js

theorem everyone_asks (sid : Nat) (env : Request) :
    AsksUsers ((everyonePost housemates status).request sid env) (housemates.map rowJs)
      status.js where
  route := rfl
  listed := rfl
  asked := by cases status <;> rfl
  readable := by
    intro user mem
    obtain ⟨h, -, rfl⟩ := List.mem_map.mp mem
    obtain ⟨e, he⟩ := cellJs_toStr (h .email)
    cases status <;> simp [taskArguments, rowJs_toStr, rowJs_email, he, Status.js, JsVal.toStr]

theorem gatherTasks_asks {φ : Stmt → Prop} {user : Option SessionUser} {total : Nat}
    {queries : List (JsVal × JsVal)} (each : ∀ a ∈ queries, φ (.getTasksForUser a.1 a.2)) :
    (gatherTasks user total queries).Issues φ := by
  induction queries with
  | nil => trivial
  | cons a rest ih =>
    refine ⟨each a List.mem_cons_self, fun r => ?_,
      ih fun b hb => each b (List.mem_cons_of_mem a hb)⟩
    cases r with
    | none => trivial
    | some rows =>
      intro complete
      cases complete with
      | false => trivial
      | true =>
        intro ok
        cases ok <;> trivial

theorem everyone_issues (sid : Nat) (env : Request) (w : World P) :
    (handler P (w.context ((everyonePost housemates status).request sid env))).Issues
      (Query status) := by
  have asks : AsksUsers (w.context ((everyonePost housemates status).request sid env)).req
    (housemates.map rowJs) status.js := everyone_asks sid env
  by_cases nobody : housemates = []
  · rw [nobody] at asks ⊢
    rw [handler_nobody asks]
    exact Issues.recover (send_issues _ _) (send_issues _ _)
  · rw [handler_users asks (by simpa using nobody)]
    refine gatherTasks_asks fun a mem => ?_
    simp only [List.map_map, List.mem_map] at mem
    obtain ⟨h, -, rfl⟩ := mem
    exact ⟨h .email, rfl⟩

theorem comment_handler (sid : Nat) (env : Request) (w : World P) :
    handler P (w.context (commentPost.request sid env)) = .done := rfl

theorem Query.exec {s : Stmt} (query : Query status s) (db : Database P.collate) :
    ∃ r, OneRoof.exec P.collate s db = some (r, db) := by
  obtain ⟨e, rfl⟩ := query
  rw [← Status.js_cell]
  exact ⟨_, exec_getTasksForUser e status.cell db⟩

end Queries

section Runs

variable {housemates : List (Row UserCol)} {status : Status} {db : Database P.collate}
variable {p : Page P}

/-- What the queries are sent for. -/
def emailsOf (housemates : List (Row UserCol)) : List JsVal :=
  (housemates.map rowJs).map fun user => user.get "email"

/-- What holds while everyone's tasks are asked for. -/
structure Asking (housemates : List (Row UserCol)) (status : Status) (db : Database P.collate)
    (p : Page P) : Prop where
  linked : p.Linked
  tables : p.backend.world.db = db
  queries : Bounded (fun _ => Query status) p.backend
  told : ∀ e ∈ p.backend.world.log, Told db e
  loaded : p.feed.pureHousemates = housemates.map rowJs
  current : p.feed.statusType = status
  sent : ∀ t ∈ p.sent, t.2 = everyonePost housemates status ∨ t.2 = commentPost
  served : ∀ s ∈ p.served, s.post = commentPost ∨ s.post = everyonePost housemates status ∧
    ∃ c came left, c.rid = s.rid ∧
      Gathering c status.js (emailsOf housemates) p.backend came left
  past : ∀ r ∈ p.received, r.after ≤ p.clicks.length
  shown : p.clicks ≠ [] → ∃ list, p.feed.tasks = .arr list ∧ list.Perm
    (List.replicate p.fills (everyonesTasks P.collate db.tables status housemates)).flatten

theorem opened_asking {feed : Feed} (loaded : feed.pureHousemates = housemates.map rowJs)
    (store : Nat → Option SessionUser) :
    Asking housemates feed.statusType db (.opened feed db store) where
  linked := Page.opened_linked feed db store
  tables := rfl
  queries _ mem := absurd mem List.not_mem_nil
  told _ mem := absurd mem List.not_mem_nil
  loaded := loaded
  current := rfl
  sent _ mem := absurd mem List.not_mem_nil
  served _ mem := absurd mem List.not_mem_nil
  past _ mem := absurd mem List.not_mem_nil
  shown clicked := absurd rfl clicked

theorem Asking.click (asking : Asking housemates status db p) :
    Asking housemates status db (p.click .showEveryone) where
  linked := asking.linked.move 0 (.click .showEveryone)
  tables := asking.tables
  queries := asking.queries
  told := asking.told
  loaded := asking.loaded
  current := asking.current
  sent := by
    intro t mem
    rcases List.mem_append.mp mem with old | new
    · exact asking.sent t old
    · obtain ⟨post, posted, rfl⟩ := List.mem_map.mp new
      have posts : post ∈ [p.feed.getTasks .showEveryone p.feed.pureHousemates, commentPost] :=
        posted
      rw [Feed.getTasks, asking.loaded, asking.current] at posts
      simpa [everyonePost] using posts
  served := asking.served
  past := by
    intro r mem
    have before := asking.past r mem
    simp only [Page.click, List.length_append, List.length_singleton]
    omega
  shown := by
    intro _
    refine ⟨[], rfl, ?_⟩
    have none : (p.click .showEveryone).fills = 0 := by
      refine List.countP_eq_zero.mpr fun r mem => ?_
      have before := asking.past r mem
      have clicks : (p.click .showEveryone).clicks.length = p.clicks.length + 1 := by
        simp [Page.click]
      simp only [Receipt.fills, clicks, decide_eq_true_eq]
      omega
    rw [none]
    exact List.Perm.refl _

/-- A step of the server keeps what is being gathered. -/
theorem Asking.gathers (asking : Asking housemates status db p) {l : Label P} {τ : Config P}
    (stepped : step (server P) l p.backend = τ) (told : ∀ e ∈ τ.world.log, Told db e) :
    ∀ s ∈ p.served, s.post = commentPost ∨ s.post = everyonePost housemates status ∧
      ∃ c came left, c.rid = s.rid ∧ Gathering c status.js (emailsOf housemates) τ came left := by
  intro s mem
  rcases asking.served s mem with comment | ⟨everyone, c, came, left, own, gathers⟩
  · exact Or.inl comment
  · rcases gathers.step l with ⟨q, failed⟩ | ⟨came', left', gathers'⟩
    · rw [stepped] at failed
      exact absurd (told _ failed) id
    · rw [stepped] at gathers'
      exact Or.inr ⟨everyone, c, came', left', own, gathers'⟩

theorem Asking.serve (asking : Asking housemates status db p) (i : Nat) :
    Asking housemates status db { p with backend := settle (server P) i false p.backend } := by
  have kept : (settle (server P) i false p.backend).world.db = db ∧
      ∀ e ∈ (settle (server P) i false p.backend).world.log, Told db e := by
    rcases server_settle_cases i false p.backend with same | ⟨q, waits, outcome⟩
    · rw [same]
      exact ⟨asking.tables, asking.told⟩
    · obtain ⟨r, found⟩ := (asking.queries q (List.mem_of_getElem? waits)).1.exec db
      rcases outcome with ⟨-, refused⟩ | ⟨r', db', -, completes, settled⟩
      · rw [asking.tables, found] at refused
        exact absurd (refused rfl) (Option.some_ne_none _)
      · rw [asking.tables, found] at completes
        cases completes
        rw [settled]
        refine ⟨enter_db _ _ _,
          enter_events_meet (fun _ _ _ => trivial) (fun _ _ => trivial) _ _ _ ?_⟩
        intro e mem
        rcases List.mem_append.mp mem with old | new
        · exact asking.told e old
        · rw [List.mem_singleton.mp new]
          exact found
  exact
    { linked := asking.linked.move 0 (.serve i false)
      tables := kept.1
      queries := settle_bounded i false p.backend asking.queries
      told := kept.2
      loaded := asking.loaded
      current := asking.current
      sent := asking.sent
      served := asking.gathers (l := .settle i false) rfl kept.2
      past := asking.past
      shown := asking.shown }

theorem Asking.deliver (asking : Asking housemates status db p) (sid i : Nat) (env : Request) :
    Asking housemates status db (p.deliver sid i env) := by
  have linked := asking.linked.move sid (.deliver i env)
  simp only [Page.move] at linked
  rcases Page.deliver_cases sid i env p with same | ⟨tag, post, waits, moved⟩
  · rw [same]
    exact asking
  have post_cases := asking.sent _ (List.mem_of_getElem? waits)
  have told : ∀ e ∈ (step (server P) (.arrive (post.request sid env)) p.backend).world.log,
      Told db e :=
    enter_events_meet (fun _ _ _ => trivial) (fun _ _ => trivial) _ _
      ⟨p.backend.world.next, p.backend.pending⟩ asking.told
  have issues : (handler P (p.backend.world.context (post.request sid env))).Issues
      (Query status) := by
    rcases post_cases with rfl | rfl
    · exact everyone_issues sid env _
    · rw [comment_handler]
      trivial
  rw [moved] at linked ⊢
  exact
    { linked := linked
      tables := (enter_db _ _ _).trans asking.tables
      queries := enter_bounded _ _ ⟨p.backend.world.next, p.backend.pending⟩ issues asking.queries
      told := told
      loaded := asking.loaded
      current := asking.current
      sent := fun t mem => asking.sent t (List.mem_of_mem_eraseIdx mem)
      served := by
        intro s mem
        rcases List.mem_append.mp mem with old | new
        · exact asking.gathers rfl told s old
        · rw [List.mem_singleton.mp new]
          rcases post_cases with rfl | rfl
          · exact Or.inr ⟨rfl, _, [], _, rfl, arrive_gathering asking.linked.fresh
              (everyone_asks sid env)⟩
          · exact Or.inl rfl
      past := asking.past
      shown := asking.shown }

/-- What a query for an email is answered with. -/
def listFound (db : Database P.collate) (status : Status) (email : JsVal) : List JsVal :=
  match exec P.collate (.getTasksForUser email status.js) db with
  | some found => (taskRowsJs found.1).items
  | none => []

theorem listFound_eq {email : JsVal} {rows : TaskRows} {db' : Database P.collate}
    (completes : exec P.collate (.getTasksForUser email status.js) db = some (rows, db')) :
    listFound db status email = (taskRowsJs rows).items := by
  unfold listFound
  rw [completes]

/-- The lists that have come hold everyone's tasks, in some order. -/
theorem gathered_everyone {σ : Config P} {c : Ctx} {came : List (JsVal × TaskRows)}
    (gathers : Gathering c status.js (emailsOf housemates) σ came [])
    (told : ∀ e ∈ σ.world.log, Told db e) :
    (came.map fun f => (taskRowsJs f.2).items).flatten.Perm
      (everyonesTasks P.collate db.tables status housemates) := by
  have each : came.map (fun f => (taskRowsJs f.2).items) =
      (came.map Prod.fst).map (listFound db status) := by
    rw [List.map_map]
    refine List.map_congr_left fun f mem => ?_
    have logged : fetched c status.js f ∈ σ.world.history c.rid := by
      rw [gathers.history]
      exact List.mem_append_left _ (List.mem_map_of_mem mem)
    exact (listFound_eq (told _ (List.mem_of_mem_filter logged))).symm
  have asked : (emailsOf housemates).map (listFound db status) = housemates.map fun h =>
      (taskRowsJs (tasksOf P.collate db.tables status h)).items := by
    rw [emailsOf, List.map_map, List.map_map]
    refine List.map_congr_left fun h _ => ?_
    have completes := exec_getTasksForUser (h .email) status.cell db
    rw [Status.js_cell] at completes
    exact listFound_eq completes
  have split := gathers.split
  rw [List.append_nil] at split
  have perm := (split.map (listFound db status)).flatten
  rw [← each, asked] at perm
  exact perm

/-- An answer that reaches the page is complete. -/
theorem Asking.answer (asking : Asking housemates status db p) {s : Served} (mem : s ∈ p.served)
    (everyone : s.post = everyonePost housemates status) {data : JsVal}
    (replies : p.backend.world.reply s.rid = some (.json data)) :
    ∃ lists : List (List JsVal), data = .arr (lists.map .arr) ∧
      lists.flatten.Perm (everyonesTasks P.collate db.tables status housemates) := by
  rcases asking.served s mem with comment | ⟨-, c, came, left, own, gathers⟩
  · rw [everyone] at comment
    cases comment
  obtain ⟨c', user, answered, same⟩ := reply_mem replies
  have logged : .answered c' (.json data) user ∈ p.backend.world.history c.rid :=
    List.mem_filter.mpr ⟨answered, by simp [Event.ctx, same, own]⟩
  rw [gathers.history] at logged
  rcases List.mem_append.mp logged with query | last
  · obtain ⟨f, -, other⟩ := List.mem_map.mp query
    cases other
  · split at last
    · rename_i empty
      cases List.isEmpty_iff.mp empty
      cases List.mem_singleton.mp last
      refine ⟨came.map fun f => (taskRowsJs f.2).items, ?_, gathered_everyone gathers asking.told⟩
      rw [List.map_map]
      rfl
    · cases last

/-- The answer to `showEveryone` appends its lists, or nothing. -/
theorem everyone_answered (lists : List (List JsVal)) (feed : Feed) :
    ((feed.answered .showEveryone (.arr (lists.map .arr))).2 = [] ∧
      (feed.answered .showEveryone (.arr (lists.map .arr))).1 = { feed with
        tasks := if (JsVal.arr (lists.map .arr)).firstFilled = some true
          then Feed.pushEach (lists.map .arr) feed.tasks else feed.tasks }) := by
  refine ⟨rfl, ?_⟩
  simp only [Feed.answered, Feed.showEveryoneAnswered]
  cases (JsVal.arr (lists.map .arr)).firstFilled with
  | none => rfl
  | some filled => cases filled <;> rfl

/-- Everyone's tasks are shown once more, or the answer does not count. -/
theorem Asking.appends (asking : Asking housemates status db p) (clicked : p.clicks ≠ [])
    {lists : List (List JsVal)}
    (perm : lists.flatten.Perm (everyonesTasks P.collate db.tables status housemates)) :
    ∃ list, (if (JsVal.arr (lists.map .arr)).firstFilled = some true
        then Feed.pushEach (lists.map .arr) p.feed.tasks else p.feed.tasks) = .arr list ∧
      list.Perm (List.replicate ((p.received ++ [Receipt.mk p.clicks.length
          (everyonePost housemates status) (.arr (lists.map .arr))]).countP
            (Receipt.fills p.clicks.length))
        (everyonesTasks P.collate db.tables status housemates)).flatten := by
  obtain ⟨list, tasks, listed⟩ := asking.shown clicked
  have counted : (p.received ++ [Receipt.mk p.clicks.length (everyonePost housemates status)
      (.arr (lists.map .arr))]).countP (Receipt.fills p.clicks.length) =
        p.fills + if (JsVal.arr (lists.map .arr)).firstFilled = some true then 1 else 0 := by
    simp [Page.fills, Receipt.fills, everyonePost]
  rw [counted, tasks, Feed.pushEach_lists]
  by_cases filled : (JsVal.arr (lists.map .arr)).firstFilled = some true
  · rw [if_pos filled, if_pos filled, List.replicate_succ', List.flatten_append,
      List.flatten_singleton]
    exact ⟨_, rfl, listed.append perm⟩
  · rw [if_neg filled, if_neg filled]
    exact ⟨list, rfl, listed⟩

theorem Asking.receive (asking : Asking housemates status db p) (j : Nat) :
    Asking housemates status db (p.receive j) := by
  have linked := asking.linked.move 0 (.receive j)
  simp only [Page.move] at linked
  rcases Page.receive_cases j p with same | ⟨s, answer, waits, replies, outcome⟩
  · rw [same]
    exact asking
  have mem := List.mem_of_getElem? waits
  have rest : ∀ s ∈ p.served.eraseIdx j, s.post = commentPost ∨
      s.post = everyonePost housemates status ∧ ∃ c came left, c.rid = s.rid ∧
        Gathering c status.js (emailsOf housemates) p.backend came left :=
    fun s mem => asking.served s (List.mem_of_mem_eraseIdx mem)
  rcases outcome with ⟨data, rfl, moved⟩ | ⟨-, moved⟩
  · rw [moved] at linked ⊢
    have past : ∀ r ∈ p.received ++ [⟨p.clicks.length, s.post, data⟩],
        r.after ≤ p.clicks.length := by
      intro r received
      rcases List.mem_append.mp received with old | new
      · exact asking.past r old
      · rw [List.mem_singleton.mp new]
    have posted : s.post = commentPost ∨ s.post = everyonePost housemates status :=
      (asking.served s mem).imp id And.left
    rcases posted with comment | everyone
    · rw [comment] at linked past ⊢
      have counted : (p.received ++ [Receipt.mk p.clicks.length commentPost data]).countP
          (Receipt.fills p.clicks.length) = p.fills := by
        simp [Page.fills, Receipt.fills, commentPost]
      exact
        { asking with
          linked := linked
          sent := by simpa [commentPost, Feed.answered] using asking.sent
          served := rest
          past := past
          shown := by
            rw [Page.fills, counted]
            exact asking.shown }
    · obtain ⟨lists, rfl, perm⟩ := asking.answer mem everyone replies
      rw [everyone] at linked past ⊢
      have answered := everyone_answered lists p.feed
      have call : (everyonePost housemates status).call = .showEveryone := rfl
      rw [call, answered.1, answered.2] at linked ⊢
      exact
        { asking with
          linked := linked
          sent := by simpa using asking.sent
          served := rest
          past := past
          shown := fun clicked => asking.appends clicked perm }
  · rw [moved] at linked ⊢
    exact { asking with linked := linked, served := rest }

theorem Asking.move (asking : Asking housemates status db p) (sid : Nat) {m : Page.Move}
    (asks : m.asksEveryone = true) : Asking housemates status db (p.move sid m) := by
  cases m with
  | click m =>
    cases m with
    | showEveryone => exact asking.click
    | _ => cases asks
  | deliver i env => exact asking.deliver sid i env
  | serve i lost =>
    cases lost with
    | false => exact asking.serve i
    | true => cases asks
  | receive j => exact asking.receive j

end Runs

theorem replicate_perm_iff {α : Type} (n : Nat) (l : List α) :
    (List.replicate n l).flatten.Perm l ↔ l = [] ∨ n = 1 := by
  constructor
  · intro perm
    have length := perm.length_eq
    rw [List.length_flatten, List.map_replicate, List.sum_replicate_nat] at length
    rcases Nat.eq_zero_or_pos l.length with empty | some
    · exact Or.inl (List.length_eq_zero_iff.mp empty)
    · exact Or.inr (Nat.eq_of_mul_eq_mul_right some (by rw [length, Nat.one_mul]))
  · rintro (rfl | rfl)
    · simp
    · simp

/-- For all tables and housemates, any calls of `showEveryone` and any order of completions and
answers: the list holds everyone's tasks, each as often as `getTasksForUser` finds it, exactly
when nobody has a task or one answer since the last call starts with a list that has one. -/
theorem everyone_shown_iff (sid : Nat) {feed : Feed} {housemates : List (Row UserCol)}
    (loaded : feed.pureHousemates = housemates.map rowJs) (db : Database P.collate)
    (store : Nat → Option SessionUser) {ms : List Page.Move}
    (asks : ∀ m ∈ ms, m.asksEveryone = true)
    (clicked : (Page.run sid ms (.opened feed db store)).clicks ≠ []) :
    ∃ shown, (Page.run sid ms (.opened feed db store)).feed.tasks = .arr shown ∧
      (shown.Perm (everyonesTasks P.collate db.tables feed.statusType housemates) ↔
        everyonesTasks P.collate db.tables feed.statusType housemates = [] ∨
          (Page.run sid ms (.opened feed db store)).fills = 1) := by
  have asking : Asking housemates feed.statusType db (Page.run sid ms (.opened feed db store)) :=
    Traces.run_invariant (Asking housemates feed.statusType db)
      (fun _ _ asks asking => asking.move sid asks) (Traces.along_of_forall asks _)
      (opened_asking loaded store)
  obtain ⟨shown, tasks, listed⟩ := asking.shown clicked
  refine ⟨shown, tasks, ?_⟩
  rw [← replicate_perm_iff]
  exact ⟨fun perm => listed.symm.trans perm, fun perm => listed.trans perm⟩

/-- Ann, who has a task, and Ben, who has none. -/
def annBensRows : List (Row UserCol) :=
  [houseMember 1 "Ann" (.text "ann@x"), houseMember 2 "Ben" (.text "ben@x")]

def annAndBensFeed : Feed := { pureHousemates := annBensRows.map rowJs }

def annsTask : Database samplePlatform.collate :=
  (run (server samplePlatform) signupThenTask (startUp samplePlatform)).world.db

/-- Everyone's tasks are asked for, and the two queries complete in the given order. -/
def askedOnce (first second : Nat) : List Page.Move :=
  [.click .showEveryone, .deliver 0 { sid := 0, route := .tasks }, .deliver 0
    { sid := 0, route := .tasks }, .serve first false, .serve second false, .receive 0]

theorem everyone_shown_sample :
    (Page.run 0 (askedOnce 0 0) (.opened annAndBensFeed annsTask fun _ => none)).Quiet ∧
    everyonesTasks samplePlatform.collate annsTask.tables .incomplete annBensRows ≠ [] ∧
    ∃ shown, (Page.run 0 (askedOnce 0 0)
        (.opened annAndBensFeed annsTask fun _ => none)).feed.tasks = .arr shown ∧
      shown.Perm
        (everyonesTasks samplePlatform.collate annsTask.tables .incomplete annBensRows) := by
  have loaded : annAndBensFeed.pureHousemates = annBensRows.map rowJs := rfl
  have asks : ∀ m ∈ askedOnce 0 0, m.asksEveryone = true := by decide
  obtain ⟨shown, tasks, listed⟩ := everyone_shown_iff 0 loaded annsTask (fun _ => none) asks
    (List.cons_ne_nil _ _)
  refine ⟨by decide +kernel, ?_, shown, tasks, listed.mpr (Or.inr (by decide +kernel))⟩
  exact fun none => absurd (List.isEmpty_iff.mpr none) (by decide +kernel)

/-- The query for Ben completes first, and Ann's task is not shown. -/
theorem everyones_task_hidden :
    (∀ m ∈ askedOnce 1 0, m.asksEveryone = true) ∧
    (Page.run 0 (askedOnce 1 0) (.opened annAndBensFeed annsTask fun _ => none)).Quiet ∧
    ∀ shown, (Page.run 0 (askedOnce 1 0)
        (.opened annAndBensFeed annsTask fun _ => none)).feed.tasks = .arr shown →
      ¬ shown.Perm (everyonesTasks samplePlatform.collate annsTask.tables .incomplete
        annBensRows) := by
  refine ⟨by decide, by decide +kernel, fun shown tasks perm => ?_⟩
  have empty : (Page.run 0 (askedOnce 1 0)
      (.opened annAndBensFeed annsTask fun _ => none)).feed.tasks.items.isEmpty = true := by
    decide +kernel
  rw [tasks] at empty
  rw [List.isEmpty_iff.mp (show shown.isEmpty = true from empty)] at perm
  exact absurd (List.isEmpty_iff.mpr perm.nil_eq.symm) (by decide +kernel)

end OneRoof
