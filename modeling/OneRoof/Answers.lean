import OneRoof.Lib.Pairs
import OneRoof.Residents

/-!
# What the pages show

A page that is read with one query answers with what that query has found, and the query
found the tables as the log before it shows them. So the overview of a house and the list of
its members show the register as it was at one moment while the request was served. The page
with the tasks of somebody else asks for tasks whose status is NULL, and shows none ever.
-/

namespace OneRoof

open Sql Async Async.Prog Prog

variable {P : Platform}

/-- The user of the session in the overview of the house, by the look-up of the house. -/
def overview (u : SessionUser) (rows : List (Row HouseUserCol)) : SessionUser :=
  match rows.head? with
  | some row => { u with houseID := cellInt (row .house_id) }
  | none => u

/-- One of the users of the request is asked for with this email and status. -/
def AsksTasks (q : Request) (email status : JsVal) : Prop :=
  ∃ items user, q.body.get "users" = .arr items ∧ user ∈ items ∧
    taskArguments (q.body.get "status") user = some (email, status)

/-- A list of tasks that a query of the request with this number has found. -/
def ListOf (log : List Event) (rid : Nat) (entry : JsVal) : Prop :=
  ∃ c email status rows, c.rid = rid ∧ AsksTasks c.req email status ∧
    .completed c (.getTasksForUser email status) rows ∈ log ∧ entry = taskRowsJs rows

/-- The page is made of what the queries of its own request have found. -/
def MadeOf (log : List Event) (c : Ctx) (v : JsVal) : Prop :=
  match c.req.route with
  | .house => ∃ u rows, c.user = some u ∧ .completed c (.getHouse u.user_id) rows ∈ log ∧
    v = (overview u rows).js
  | .houseDetails => ∃ u rows, c.user = some u ∧
    .completed c (.getHouseWithID u.houseID) rows ∈ log ∧ v = .arr [firstJs rows]
  | .settings => ∃ u rows, c.user = some u ∧ .completed c (.getHouse u.user_id) rows ∈ log ∧
    (rows.head? = none ∧ v = u.js ∨ ∃ row rs h, rows.head? = some row ∧
      .completed c (.getHouseCode (cellInt (row .house_id))) rs ∈ log ∧ rs.head? = some h ∧
      v = .arr [{ u with houseID := cellInt (h .house_id) }.js, rowJs h])
  | .getUsers => ∃ u h rows, c.user = some u ∧ u.houseID = some h ∧
    .completed c (.getUsersInHouse (some h)) rows ∈ log ∧ v = .arr [u.js, rowsJs rows]
  | .getGroups => ∃ u rows, c.user = some u ∧
    .completed c (.getHouseGroups u.houseID) rows ∈ log ∧ v = houseGroupsJs rows
  | .getUserGroups => ∃ u rows, c.user = some u ∧
    .completed c (.getUserGroups u.user_id) rows ∈ log ∧ v = groupsJs rows
  | .viewUserGroups => ∃ u rows row groups, c.user = some u ∧
    .completed c (.getUser u.requestedProfile) rows ∈ log ∧ rows.head? = some row ∧
    .completed c (.getUserGroups (cellInt (row .user_id))) groups ∈ log ∧ v = groupsJs groups
  | .profile => ∃ u rows, c.user = some u ∧
    .completed c (.getUser u.requestedProfile) rows ∈ log ∧ v = .arr [u.js, firstJs rows]
  | .getComment => ∃ rows, .completed c (.getComment (c.req.body.get "task_id")) rows ∈ log ∧
    v = rowsJs rows
  | .tasks => ∃ items entries, c.req.body.get "users" = .arr items ∧ v = .arr entries ∧
    entries.length = items.length ∧ ∀ entry ∈ entries, ListOf log c.rid entry
  | .viewTasks => ∃ u rows, c.user = some u ∧
    .completed c (.getTasksForUser u.requestedProfile .undefined) rows ∈ log ∧
    v = taskRowsJs rows
  | .createHouse => ∃ name rent packet,
    .completed c (.createHouse name rent (houseCode c.req.draws)) packet ∈ log ∧
    v = .str (houseCode c.req.draws)
  | .addTask => v = .undefined
  | _ => True

theorem ListOf.later {log log' : List Event} {rid : Nat} {entry : JsVal}
    (list : ListOf log rid entry) (le : log <+: log') : ListOf log' rid entry := by
  obtain ⟨c, email, status, rows, number, asks, found, shows⟩ := list
  exact ⟨c, email, status, rows, number, asks, le.subset found, shows⟩

theorem MadeOf.later {log log' : List Event} {c : Ctx} {v : JsVal} (made : MadeOf log c v)
    (le : log <+: log') : MadeOf log' c v := by
  unfold MadeOf at made ⊢
  split at made
  · obtain ⟨u, rows, user, found, page⟩ := made
    exact ⟨u, rows, user, le.subset found, page⟩
  · obtain ⟨u, rows, user, found, page⟩ := made
    exact ⟨u, rows, user, le.subset found, page⟩
  · obtain ⟨u, rows, user, found, page⟩ := made
    refine ⟨u, rows, user, le.subset found, page.imp_right ?_⟩
    rintro ⟨row, rs, h, head, coded, first, page⟩
    exact ⟨row, rs, h, head, le.subset coded, first, page⟩
  · obtain ⟨u, h, rows, user, house, found, page⟩ := made
    exact ⟨u, h, rows, user, house, le.subset found, page⟩
  · obtain ⟨u, rows, user, found, page⟩ := made
    exact ⟨u, rows, user, le.subset found, page⟩
  · obtain ⟨u, rows, user, found, page⟩ := made
    exact ⟨u, rows, user, le.subset found, page⟩
  · obtain ⟨u, rows, row, groups, user, found, head, listed, page⟩ := made
    exact ⟨u, rows, row, groups, user, le.subset found, head, le.subset listed, page⟩
  · obtain ⟨u, rows, user, found, page⟩ := made
    exact ⟨u, rows, user, le.subset found, page⟩
  · obtain ⟨rows, found, page⟩ := made
    exact ⟨rows, le.subset found, page⟩
  · obtain ⟨items, entries, users, page, length, lists⟩ := made
    exact ⟨items, entries, users, page, length, fun entry mem => (lists entry mem).later le⟩
  · obtain ⟨u, rows, user, found, page⟩ := made
    exact ⟨u, rows, user, le.subset found, page⟩
  · obtain ⟨name, rent, packet, found, page⟩ := made
    exact ⟨name, rent, packet, le.subset found, page⟩
  · exact made
  · trivial

/-- Every page that was sent is made of what was found, and so are the lists that wait. -/
structure PagesMade (w : World P) : Prop where
  sent : ∀ c v user, .answered c (.json v) user ∈ w.log → MadeOf w.log c v
  gathered : ∀ rid, ∀ entry ∈ w.gathered rid, ListOf w.log rid entry

/-- A page that an action sends is made of what was found. -/
def Act.Makes (w : World P) (c : Ctx) : Act → Prop
  | .send answer _ => ∀ v, answer = .json v → MadeOf w.log c v
  | .sendGathered _ => MadeOf w.log c (.arr (w.gathered c.rid))
  | .push entry _ => ListOf w.log c.rid entry
  | .compareSync _ => True

theorem PagesMade.log {w : World P} (good : PagesMade w) {e : Event}
    (made : ∀ c v user, e = .answered c (.json v) user → MadeOf w.log c v) :
    PagesMade { w with log := w.log ++ [e] } := by
  refine ⟨fun c v user mem => ?_, fun rid entry mem =>
    (good.gathered rid entry mem).later (List.prefix_append _ _)⟩
  rcases List.mem_append.mp mem with old | new
  · exact (good.sent c v user old).later (List.prefix_append _ _)
  · exact (made c v user (List.mem_singleton.mp new).symm).later (List.prefix_append _ _)

theorem PagesMade.answer {w : World P} (good : PagesMade w) {c : Ctx} {answer : Answer}
    {user : Option SessionUser} (made : ∀ v, answer = .json v → MadeOf w.log c v) :
    PagesMade (w.answer c answer user).2 := by
  unfold World.answer
  split
  · exact good
  · have logged := good.log (e := .answered c answer user) (by rintro _ v _ ⟨⟩; exact made v rfl)
    exact ⟨logged.sent, logged.gathered⟩

theorem PagesMade.push {w : World P} (good : PagesMade w) {c : Ctx} {entry : JsVal}
    (list : ListOf w.log c.rid entry) (total : Nat) :
    PagesMade (World.perform c (.push entry total) w).2 := by
  refine ⟨good.sent, fun rid entry' mem => ?_⟩
  simp only [World.perform, Function.update_apply] at mem
  split at mem
  · rename_i own
    subst own
    rcases List.mem_append.mp mem with old | new
    · exact good.gathered _ _ old
    · exact List.mem_singleton.mp new ▸ list
  · exact good.gathered rid entry' mem

/-- Pages are made of what the queries of their requests have found. -/
def making (P : Platform) : Discipline (server P) where
  Good := PagesMade
  Le w w' := w.log <+: w'.log
  Allowed _ _ _ := True
  Permit c a w := a.Makes w c
  refl := log_refl
  trans := log_trans
  mono _ _ := trivial
  exec_good := by
    intro c s w r w' good _ he
    obtain ⟨⟨r', db⟩, -, hw⟩ := Option.map_eq_some_iff.mp he
    cases hw
    have logged := good.log (e := .completed c s r) fun _ _ _ h => Event.noConfusion h
    exact ⟨⟨logged.sent, logged.gathered⟩, List.prefix_append _ _⟩
  refuse_good good := ⟨good.log fun _ _ _ h => Event.noConfusion h, List.prefix_append _ _⟩
  perform_good := by
    intro c a w good makes
    refine ⟨?_, log_perform c a w⟩
    cases a with
    | send answer user => exact good.answer makes
    | sendGathered user =>
      refine good.answer ?_
      rintro _ ⟨⟩
      exact makes
    | push entry total => exact good.push makes total
    | compareSync hash => exact good.log fun _ _ _ h => Event.noConfusion h

section Handlers

variable {c : Ctx} {w : World P}

theorem safe_refusal (code : Nat) (text : String) (user : Option SessionUser) :
    (making P).Safe c (Prog.send (.status code text) user) w :=
  safe_send fun _ h => by cases h

theorem safe_page {v : JsVal} {user : Option SessionUser} (made : MadeOf w.log c v) :
    (making P).Safe c (Prog.send (.json v) user) w :=
  safe_send fun _ same => by cases same; exact made

/-- What a query of the request has found by the time of its callback. -/
theorem found_mem (c : Ctx) (s : Stmt) (r : s.Reply) (w : World P) (db : Database P.collate) :
    .completed c s r ∈ (w.complete c s r db).log :=
  List.mem_append_right _ (List.mem_singleton_self _)

theorem house_making (route : c.req.route = .house) : (making P).Safe c (house c.user) w := by
  refine safe_withUser fun u user => safe_thenRun trivial fun w' rows db _ _ _ _ _ => ?_
  have page : MadeOf (w'.complete c (.getHouse u.user_id) rows db).log c (overview u rows).js := by
    simp only [MadeOf, route]
    exact ⟨u, rows, user, found_mem _ _ _ _ _, rfl⟩
  cases head : rows.head? with
  | none =>
    simp only [overview, head] at page
    exact safe_page page
  | some row =>
    simp only [overview, head] at page
    exact safe_page page

/-- A page that is read with one query for the session user. -/
theorem looked_making {stmt : SessionUser → Stmt}
    {page : (u : SessionUser) → (stmt u).Reply → JsVal}
    (made : ∀ u r log, c.user = some u → .completed c (stmt u) r ∈ log → MadeOf log c (page u r)) :
    (making P).Safe c (withUser c.user fun u => query (stmt u) <| thenRun fun r =>
      Prog.send (.json (page u r)) (some u)) w :=
  safe_withUser fun u user => safe_thenRun trivial fun _ r _ _ _ _ _ _ =>
    safe_page (made u r _ user (found_mem _ _ _ _ _))

theorem getUsers_making (route : c.req.route = .getUsers) :
    (making P).Safe c (getUsers c.user) w := by
  refine safe_withUser fun u user => ?_
  cases house : u.houseID with
  | none => trivial
  | some h =>
    refine safe_thenRun trivial fun w' rows db _ _ _ _ _ => safe_page ?_
    simp only [MadeOf, route]
    exact ⟨u, h, rows, user, house, found_mem _ _ _ _ _, rfl⟩

theorem profile_making (route : c.req.route = .profile) :
    (making P).Safe c (profile c.user) w := by
  refine safe_withUser fun u user => safe_getUser trivial (fun _ _ _ => trivial)
    fun w' rows db _ _ _ _ _ => safe_page ?_
  simp only [MadeOf, route]
  exact ⟨u, rows, user, found_mem _ _ _ _ _, rfl⟩

theorem getUserGroups_making (route : c.req.route = .getUserGroups) :
    (making P).Safe c (getUserGroups c.user) w := by
  refine safe_withUser fun u user => safe_getUser trivial (fun _ _ _ => trivial)
    fun w' _ db _ _ _ _ _ => safe_thenRun trivial fun w'' rows db' _ _ _ _ _ => safe_page ?_
  simp only [MadeOf, route]
  exact ⟨u, rows, user, found_mem _ _ _ _ _, rfl⟩

theorem viewUserGroups_making (route : c.req.route = .viewUserGroups) :
    (making P).Safe c (viewUserGroups c.user) w := by
  refine safe_withUser fun u user => safe_getUser trivial (fun _ _ _ => trivial)
    fun w' rows db _ _ _ _ _ => safe_attempt fun row head =>
      safe_thenRun trivial fun w'' groups db' _ _ _ later _ => safe_page ?_
  simp only [MadeOf, route]
  exact ⟨u, rows, row, groups, user, later.subset (found_mem _ _ _ _ _), head,
    found_mem _ _ _ _ _, rfl⟩

theorem getComment_making (route : c.req.route = .getComment) :
    (making P).Safe c (getComment c.req c.user) w := by
  unfold getComment
  split
  · refine safe_thenRun trivial fun w' rows db _ _ _ _ _ => safe_page ?_
    simp only [MadeOf, route]
    exact ⟨rows, found_mem _ _ _ _ _, rfl⟩
  · trivial

theorem viewTasks_making (route : c.req.route = .viewTasks) :
    (making P).Safe c (viewTasks c.user) w := by
  refine safe_withUser fun u user => safe_attempt fun _ _ => safe_attempt fun _ _ =>
    safe_thenCatch trivial (fun w' _ _ => safe_refusal _ _ _) fun w' rows db _ _ _ _ _ =>
      safe_page ?_
  simp only [MadeOf, route]
  exact ⟨u, rows, user, found_mem _ _ _ _ _, rfl⟩

theorem tasks_page {log : List Event} (route : c.req.route = .tasks) {items entries : List JsVal}
    (users : c.req.body.get "users" = .arr items) (length : entries.length = items.length)
    (lists : ∀ entry ∈ entries, ListOf log c.rid entry) : MadeOf log c (.arr entries) := by
  simp only [MadeOf, route]
  exact ⟨items, entries, users, rfl, length, lists⟩

/-- The lists are sent when there is one for each user. -/
theorem gatherTasks_making (route : c.req.route = .tasks) {items : List JsVal}
    (users : c.req.body.get "users" = .arr items) {queries : List (JsVal × JsVal)}
    (asks : ∀ query ∈ queries, AsksTasks c.req query.1 query.2) :
    (making P).Safe c (gatherTasks c.user items.length queries) w := by
  induction queries generalizing w with
  | nil => trivial
  | cons query queries ih =>
    obtain ⟨email, status⟩ := query
    refine safe_query trivial (ih fun q mem => asks q (List.mem_cons_of_mem _ mem))
      (fun _ _ _ => trivial) fun w' rows db _ _ _ _ good => ?_
    have list : ListOf (w'.complete c (.getTasksForUser email status) rows db).log c.rid
        (taskRowsJs rows) :=
      ⟨c, email, status, rows, rfl, asks _ List.mem_cons_self, found_mem _ _ _ _ _, rfl⟩
    refine ⟨list, ?_⟩
    dsimp only
    split
    · rename_i complete
      have pushed := good.push list items.length
      refine ⟨tasks_page route users ?_ (pushed.gathered c.rid), by dsimp only; split <;> trivial⟩
      have full := of_decide_eq_true complete
      simpa [server, World.perform] using full
    · trivial

/-- Each query is for one of the users. -/
theorem mapM_asks {items : List JsVal} (users : c.req.body.get "users" = .arr items)
    {queries : List (JsVal × JsVal)}
    (mapped : items.mapM (taskArguments (c.req.body.get "status")) = some queries) :
    queries.length = items.length ∧ ∀ query ∈ queries, AsksTasks c.req query.1 query.2 := by
  have pairs := forall₂_of_mapM mapped
  refine ⟨pairs.length_eq.symm, fun query mem => ?_⟩
  obtain ⟨user, listed, asked⟩ := mem_of_forall₂ pairs mem
  exact ⟨items, user, users, listed, asked⟩

theorem tasks_making (route : c.req.route = .tasks) :
    (making P).Safe c (tasks c.req c.user) w := by
  refine safe_attempt fun _ _ => ?_
  split
  · rename_i items users
    split
    · rename_i none
      exact safe_page (tasks_page route users (mapM_asks users none).1
        fun _ mem => absurd mem List.not_mem_nil)
    · rename_i queries _ mapped
      rw [(mapM_asks users mapped).1]
      exact gatherTasks_making route users (mapM_asks users mapped).2
    · exact safe_startEach (fun _ _ _ => trivial) safe_done _
  · trivial

theorem settings_making (route : c.req.route = .settings) :
    (making P).Safe c (settings c.user) w := by
  refine safe_withUser fun u user => safe_thenRun trivial fun w' rows db _ _ _ _ _ => ?_
  cases head : rows.head? with
  | none =>
    refine safe_page ?_
    simp only [MadeOf, route]
    exact ⟨u, rows, user, found_mem _ _ _ _ _, Or.inl ⟨head, rfl⟩⟩
  | some row =>
    refine safe_thenRun trivial fun w'' rs db' _ _ _ later _ => safe_attempt fun h first =>
      safe_page ?_
    simp only [MadeOf, route]
    exact ⟨u, rows, user, later.subset (found_mem _ _ _ _ _),
      Or.inr ⟨row, rs, h, head, found_mem _ _ _ _ _, first, rfl⟩⟩

theorem createHouse_making (route : c.req.route = .createHouse) :
    (making P).Safe c (createHouse c.req c.user) w := by
  refine safe_thenCatch trivial (fun w' _ _ => safe_refusal _ _ _) fun w' packet db _ _ _ _ _ =>
    safe_withUser fun u user => safe_start trivial (safe_page ?_)
  simp only [MadeOf, route]
  exact ⟨_, _, packet, found_mem _ _ _ _ _, trivial⟩

/-- No task is in the answer to the request that makes it. -/
theorem addTask_making (route : c.req.route = .addTask) :
    (making P).Safe c (addTask c.req c.user) w := by
  have page : ∀ w', (making P).Safe c (Prog.send (.json .undefined) c.user) w' := fun w' =>
    safe_page (by simp only [MadeOf, route])
  refine safe_thenCatch trivial (fun w' _ _ => safe_refusal _ _ _) fun w' _ db _ _ _ _ good =>
    Discipline.Safe.andThen good (safe_attempt fun owners _ =>
      safe_startEach (fun _ _ _ => trivial) safe_done _) fun w'' _ _ =>
    safe_attempt fun chore _ => ?_
  split
  · exact safe_query trivial (page _) (fun _ _ _ => safe_done) fun _ _ _ _ _ _ _ good' =>
      (page _).recover good' fun _ _ _ => safe_done
  · exact safe_attempt fun amount _ => safe_start trivial (page _)

/-- A handler that gathers nothing and whose pages are not about tables. -/
theorem other_making (good : PagesMade w) (made : ∀ log v, MadeOf log c v)
    (house : c.req.route ≠ .house) (settings : c.req.route ≠ .settings)
    (tasks : c.req.route ≠ .tasks) : (making P).Safe c (OneRoof.route P c) w := by
  refine acts_safe (𝒟 := making P) (issues_of_forall (φ := fun _ => True) (fun _ => trivial) _)
    (route_homely P c house settings).2 good (fun _ _ _ _ => trivial) fun a w' _ keeps => ?_
  cases a with
  | send answer user => exact fun v _ => made _ v
  | sendGathered user => exact absurd keeps.1 tasks
  | compareSync hash => trivial
  | push entry total => exact absurd keeps tasks

theorem handler_making (c : Ctx) (good : PagesMade w) : (making P).Safe c (handler P c) w := by
  suffices safe : (making P).Safe c (OneRoof.route P c) w from
    safe.recover good fun _ _ _ => safe_refusal _ _ _
  cases route : c.req.route with
  | house => rw [OneRoof.route, route]; exact house_making route
  | settings => rw [OneRoof.route, route]; exact settings_making route
  | houseDetails | getGroups =>
    rw [OneRoof.route, route]
    refine looked_making fun u r log user found => ?_
    simp only [MadeOf, route]
    exact ⟨u, r, user, found, rfl⟩
  | getUsers => rw [OneRoof.route, route]; exact getUsers_making route
  | profile => rw [OneRoof.route, route]; exact profile_making route
  | getUserGroups => rw [OneRoof.route, route]; exact getUserGroups_making route
  | viewUserGroups => rw [OneRoof.route, route]; exact viewUserGroups_making route
  | getComment => rw [OneRoof.route, route]; exact getComment_making route
  | tasks => rw [OneRoof.route, route]; exact tasks_making route
  | viewTasks => rw [OneRoof.route, route]; exact viewTasks_making route
  | createHouse => rw [OneRoof.route, route]; exact createHouse_making route
  | addTask => rw [OneRoof.route, route]; exact addTask_making route
  | _ =>
    refine other_making good (fun log v => ?_) ?_ ?_ ?_
    · simp [MadeOf, route]
    · simp [route]
    · simp [route]
    · simp [route]

end Handlers

theorem run_pagesMade {ls : List (Label P)} (own : ∀ l ∈ ls, Label.own P l) :
    PagesMade (run (server P) ls (startUp P)).world := by
  refine (Discipline.run_holds (𝒟 := making P) ls (fun l mem => ?_) _
    (Discipline.idle_holds ⟨fun _ _ _ h => absurd h List.not_mem_nil,
      fun _ _ h => absurd h List.not_mem_nil⟩)).1.1
  cases l with
  | settle i lost => trivial
  | disturb db => exact absurd (own _ mem) id
  | arrive q =>
    intro w good
    have next : PagesMade w.next := ⟨good.sent, good.gathered⟩
    exact ⟨next, List.prefix_rfl, handler_making _ next⟩

/-- The user with the house where the register has the user first. -/
def homed (register : List Residence) (u : SessionUser) : SessionUser :=
  match u.user_id.bind fun n => register.find? fun e => e.user = n with
  | some e => { u with houseID := some e.house }
  | none => u

/-- The list of a house: everybody who is in the register of the house, and once. -/
structure ListsResidents (register : List Residence) (h : Int) (rows : List (Row UserCol)) :
    Prop where
  once : (rows.map (· .user_id)).Nodup
  exact : ∀ v, v ∈ rows.map (· .user_id) ↔ ∃ e ∈ register, e.house = h ∧ v = .int e.user

theorem overview_homed {register : List Residence} {u : SessionUser}
    {rows : List (Row HouseUserCol)} (reads : ReadsHousing register (.getHouse u.user_id) rows) :
    overview u rows = homed register u := by
  cases id : u.user_id with
  | none =>
    rw [id] at reads
    rw [show rows = [] from reads]
    simp [overview, homed, id]
  | some n =>
    rw [id] at reads
    rw [show rows = _ from reads]
    simp only [overview, homed, id, Option.bind_some, List.head?_map, List.head?_filter]
    cases register.find? fun e => decide (e.user = n) with
    | none => rfl
    | some e => rfl

/-- What a request has found about the houses, the register says of the log before it. -/
theorem housing_found {ls : List (Label P)} (own : ∀ l ∈ ls, Label.own P l) {c : Ctx} {s : Stmt}
    {r : s.Reply} (found : .completed c s r ∈ (run (server P) ls (startUp P)).world.log) :
    ∃ front, front <+: (run (server P) ls (startUp P)).world.log ∧
      ∃ db db', ShowsHousing db (residences front) ∧ exec P.collate s db = some (r, db') := by
  obtain ⟨front, rest, logged⟩ := List.append_of_mem found
  exact ⟨front, ⟨_, logged.symm⟩,
    (housing_refines.answered (fun l mem => admissible_of_own (own l mem)) logged).2⟩

/-- The overview of a house has the first house of the user. -/
theorem overview_shown {ls : List (Label P)} (own : ∀ l ∈ ls, Label.own P l) {c : Ctx} {v : JsVal}
    {user : Option SessionUser}
    (answered : .answered c (.json v) user ∈ (run (server P) ls (startUp P)).world.log)
    (route : c.req.route = .house) :
    ∃ u front, c.user = some u ∧ front <+: (run (server P) ls (startUp P)).world.log ∧
      v = (homed (residences front) u).js := by
  have made := (run_pagesMade own).sent c v user answered
  simp only [MadeOf, route] at made
  obtain ⟨u, rows, user, found, rfl⟩ := made
  obtain ⟨front, le, db, db', shown, he⟩ := housing_found own found
  exact ⟨u, front, user, le, congrArg _ (overview_homed (getHouse_reads shown he))⟩

/-- What a page about the house shows is what the register held at one moment: the overview
the first house of the user, the list of members everybody who lived there. -/
theorem pages_show_register (P : Platform) (ls : List (Label P)) (own : ∀ l ∈ ls, Label.own P l)
    (c : Ctx) (v : JsVal) (user : Option SessionUser)
    (answered : .answered c (.json v) user ∈ (run (server P) ls (startUp P)).world.log) :
    (c.req.route = .house → ∃ u front, c.user = some u ∧
      front <+: (run (server P) ls (startUp P)).world.log ∧
      v = (homed (residences front) u).js) ∧
    (c.req.route = .getUsers → ∃ u h front rows, c.user = some u ∧ u.houseID = some h ∧
      front <+: (run (server P) ls (startUp P)).world.log ∧
      ListsResidents (residences front) h rows ∧ v = .arr [u.js, rowsJs rows]) := by
  refine ⟨overview_shown own answered, fun route => ?_⟩
  have made := (run_pagesMade own).sent c v user answered
  simp only [MadeOf, route] at made
  obtain ⟨u, h, rows, user, house, found, rfl⟩ := made
  obtain ⟨front, le, db, db', shown, he⟩ := housing_found own found
  obtain ⟨once, exact⟩ := getUsersInHouse_reads shown he
  exact ⟨u, h, front, rows, user, house, le, ⟨once, exact⟩, rfl⟩

theorem getTasks_statusless {email : JsVal} {db db' : Database P.collate}
    {rows : List (Row UserCol × Row UserTaskCol × Row TaskCol)}
    (he : exec P.collate (.getTasksForUser email .undefined) db = some (rows, db')) :
    rows = [] := by
  obtain ⟨q, -, he⟩ := Option.bind_eq_some_iff.mp he
  obtain ⟨q', parsed, he⟩ := Option.bind_eq_some_iff.mp he
  cases parsed
  cases he
  simp [tasksForUser, Cond.hits, Cond.eval, eqLit_null]

/-- The page with the tasks of another user has never shown a task. -/
theorem viewed_tasks_empty (P : Platform) (ls : List (Label P)) (own : ∀ l ∈ ls, Label.own P l)
    (c : Ctx) (v : JsVal) (user : Option SessionUser)
    (answered : .answered c (.json v) user ∈ (run (server P) ls (startUp P)).world.log)
    (route : c.req.route = .viewTasks) : v = .arr [] := by
  have made := (run_pagesMade own).sent c v user answered
  simp only [MadeOf, route] at made
  obtain ⟨u, rows, -, found, rfl⟩ := made
  obtain ⟨⟨db, db', he⟩, -⟩ := completed_of_logged own found
  rw [getTasks_statusless he]
  rfl

/-- A page of such a route, if the event has sent one. -/
def Event.sentPage (chosen : Route → Bool) : Event → Bool
  | .answered c (.json _) _ => chosen c.req.route
  | _ => false

theorem exists_page {log : List Event} {chosen : Route → Bool}
    (sent : log.any (Event.sentPage chosen) = true) :
    ∃ c v user, .answered c (.json v) user ∈ log ∧ chosen c.req.route = true := by
  obtain ⟨e, mem, page⟩ := List.any_eq_true.mp sent
  unfold Event.sentPage at page
  split at page
  · exact ⟨_, _, _, mem, page⟩
  · cases page

def Route.listsMembers : Route → Bool
  | .getUsers => true
  | _ => false

def Route.listsTasks : Route → Bool
  | .viewTasks => true
  | _ => false

theorem pages_show_sample : ∃ c v user, .answered c (.json v) user ∈
      (run (server samplePlatform) annLooks (startUp samplePlatform)).world.log ∧
    ∃ u h front rows, c.user = some u ∧ u.houseID = some h ∧
      front <+: (run (server samplePlatform) annLooks (startUp samplePlatform)).world.log ∧
      ListsResidents (residences front) h rows ∧ v = .arr [u.js, rowsJs rows] := by
  obtain ⟨c, v, user, answered, chosen⟩ := exists_page
    (by decide +kernel : (run (server samplePlatform) annLooks
      (startUp samplePlatform)).world.log.any (Event.sentPage Route.listsMembers) = true)
  have route : c.req.route = .getUsers := by
    unfold Route.listsMembers at chosen
    split at chosen
    · assumption
    · cases chosen
  exact ⟨c, v, user, answered,
    (pages_show_register samplePlatform annLooks (by decide) c v user answered).2 route⟩

/-- Ann looks at her own tasks as somebody else's. -/
def annVisits : List (Label samplePlatform) :=
  annsDay.take 10 ++ [
    .arrive { sid := 0, route := .loadProfile, body := .obj [("loadEmail", .str "ann@x")] },
    .arrive { sid := 0, route := .viewTasks }, .settle 0 false]

theorem viewed_tasks_sample : ∃ c v user, .answered c (.json v) user ∈
      (run (server samplePlatform) annVisits (startUp samplePlatform)).world.log ∧
    c.req.route = .viewTasks ∧ v = .arr [] := by
  obtain ⟨c, v, user, answered, chosen⟩ := exists_page
    (by decide +kernel : (run (server samplePlatform) annVisits
      (startUp samplePlatform)).world.log.any (Event.sentPage Route.listsTasks) = true)
  have route : c.req.route = .viewTasks := by
    unfold Route.listsTasks at chosen
    split at chosen
    · assumption
    · cases chosen
  exact ⟨c, v, user, answered, route,
    viewed_tasks_empty samplePlatform annVisits (by decide) c v user answered route⟩

end OneRoof
