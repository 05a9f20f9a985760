import OneRoof.Gathering
import OneRoof.HouseCodes
import OneRoof.Screens

/-!
# Runs of a site

What a browser hears is what the server's registers held, and the browsers send only requests
that keep the registers. Each of the two rests on the other, and a run of browsers and server
keeps both.
-/

namespace OneRoof

open Sql Async

variable {P : Platform}

section Told

variable {ls : List (Label P)} {who : Nat} {c : Ctx} {v data : JsVal}
variable {user : Option SessionUser}

/-- The user of a session remembers a house only after having lived there. -/
theorem occurs_lived (own : ∀ l ∈ ls, Label.own P l)
    (occurs : Occurs c (run (server P) ls (startUp P))) {u : SessionUser}
    (signedIn : c.user = some u) : Lived (run (server P) ls (startUp P)).world.log u := by
  obtain ⟨before, q, after, rfl, rfl⟩ := occurs_arrived occurs
  have own' : ∀ l ∈ before, Label.own P l := fun l mem => own l (List.mem_append_left _ mem)
  rw [run_append]
  exact ((run_lodging own').1.sessions q.sid u signedIn).later (run_log _ _)

theorem recalled_of_answer (own : ∀ l ∈ ls, Label.own P l)
    (logged : .answered c (.json v) user ∈ (run (server P) ls (startUp P)).world.log)
    {u : SessionUser} (signedIn : c.user = some u) {h : Int} (house : u.houseID = some h) :
    Recalled c.req.sid (run (server P) ls (startUp P)).world.log h :=
  ⟨c, _, user, u, logged, rfl, signedIn, house,
    occurs_lived own (Or.inr ⟨_, logged, rfl⟩) signedIn⟩

/-- The answer is the value that was sent, if it was one. -/
theorem heard_eq (given : v ≠ .undefined)
    (heard : Hears v data) : data = v := by
  rcases heard with ⟨-, same⟩ | ⟨none, -⟩
  · exact same
  · exact absurd none given

/-- The email that is asked for is that of the user. -/
theorem arguments_email {status : JsVal} {u email status' : JsVal}
    (arguments : taskArguments status u = some (email, status')) : email = u.get "email" := by
  have given := taskArguments_readable (by simp [arguments] : taskArguments status u ≠ none)
  rw [arguments] at given
  cases given
  rfl

/-- The handlers that find tasks and comments are sent the whole body. -/
theorem body_of_request {q : Request} {o : Outgoing} {env : Request}
    (request : q = o.request who env) (route : q.route = .tasks ∨ q.route = .getComment) :
    q.body = o.body := by
  subst request
  obtain ⟨callback, r, body⟩ := o
  change r = .tasks ∨ r = .getComment at route
  rcases route with rfl | rfl <;> rfl

theorem call_told (orderly : ∀ l ∈ ls, OrderlyStep P l)
    (logged : .answered c (.json v) user ∈ (run (server P) ls (startUp P)).world.log)
    (heard : Hears v data) {call : Call} {o : Outgoing} {env : Request}
    (request : c.req = o.request who env)
    (names : o.Names P who (run (server P) ls (startUp P)).world.log)
    (route : o.route = call.route) :
    call.Told P who (run (server P) ls (startUp P)).world.log data := by
  have routed : c.req.route = call.route := (congrArg Request.route request).trans route
  unfold Call.Told
  split
  · rename_i tasks
    have asked := routed.trans tasks
    obtain ⟨items, entries, users, rfl, -, lists⟩ :=
      todo_listed (fun l mem => (orderly l mem).tidy) logged asked
    refine ⟨entries, heard_eq (by simp) heard, fun entry mem => ?_⟩
    obtain ⟨email, status, front, rows, ⟨items', user, given, named, arguments⟩, list⟩ :=
      lists entry mem
    rw [Outgoing.Names, route.trans tasks] at names
    obtain ⟨users', same, people⟩ := names
    rw [body_of_request request (Or.inl asked), same] at given
    cases given
    exact ⟨user, status, front, rows, people user named, (arguments_email arguments) ▸ list⟩
  · rename_i comments
    have asked := routed.trans comments
    obtain ⟨front, le, rfl⟩ :=
      comments_listed (fun l mem => (orderly l mem).plain) logged asked
    rw [Outgoing.Names, route.trans comments] at names
    rw [body_of_request request (Or.inr asked)] at heard
    exact ⟨_, front, names, le, heard_eq (by simp [rowsJs]) heard⟩
  · rename_i adds
    have made := (run_pagesMade fun l mem => (orderly l mem).own).sent c v user logged
    simp only [MadeOf, routed.trans adds] at made
    rcases heard with ⟨given, -⟩ | ⟨-, empty⟩
    · exact absurd made given
    · exact empty
  · trivial

theorem js_houseID (u : SessionUser) : u.js.get "houseID" = JsVal.ofInt u.houseID := by
  simp only [SessionUser.js, JsVal.get, List.find?_filter]
  cases u.houseID <;> simp [JsVal.ofInt]

theorem house_told (orderly : ∀ l ∈ ls, OrderlyStep P l)
    (logged : .answered c (.json v) user ∈ (run (server P) ls (startUp P)).world.log)
    (heard : Hears v data) (route : c.req.route = .house) :
    Callback.Told P c.req.sid (run (server P) ls (startUp P)).world.log data .house := by
  obtain ⟨u, front, signedIn, le, rfl⟩ :=
    overview_shown (fun l mem => (orderly l mem).own) logged route
  rw [heard_eq (by simp [SessionUser.js]) heard]
  refine ⟨_, ⟨c, _, user, u, front, logged, rfl, signedIn, le, rfl⟩, ?_⟩
  rw [js_houseID]
  cases (homed (residences front) u).houseID <;> rfl

theorem houseDetails_told (orderly : ∀ l ∈ ls, OrderlyStep P l)
    (logged : .answered c (.json v) user ∈ (run (server P) ls (startUp P)).world.log)
    (heard : Hears v data) (route : c.req.route = .houseDetails) :
    Callback.Told P c.req.sid (run (server P) ls (startUp P)).world.log data .houseDetails := by
  have own : ∀ l ∈ ls, Label.own P l := fun l mem => (orderly l mem).own
  have made := (run_pagesMade own).sent c v user logged
  simp only [MadeOf, route] at made
  obtain ⟨u, rows, signedIn, found, rfl⟩ := made
  rw [heard_eq (by simp) heard]
  intro house name first named
  cases first
  cases head : rows.head? with
  | none =>
    rw [firstJs, head] at named
    cases named
  | some row =>
    rw [firstJs, head] at named ⊢
    cases named
    cases remembers : u.houseID with
    | none =>
      obtain ⟨⟨db, db', he⟩, -⟩ := completed_of_logged own found
      rw [remembers] at he
      cases he
      -- nothing is equal to NULL
      have hits := (List.mem_filter.mp (List.mem_of_head? head)).2
      have equal := (Cond.hits_iff P.collate).mp hits
      simp [Cond.eval, idLit, eqLit_null] at equal
    | some h =>
      rw [remembers] at found
      exact ⟨h, c, rows, row, recalled_of_answer own logged signedIn remembers, found, head, rfl,
        rfl, rfl⟩

theorem users_told (orderly : ∀ l ∈ ls, OrderlyStep P l)
    (logged : .answered c (.json v) user ∈ (run (server P) ls (startUp P)).world.log)
    (heard : Hears v data) (route : c.req.route = .getUsers) :
    Callback.Told P c.req.sid (run (server P) ls (startUp P)).world.log data .getUsers := by
  obtain ⟨u, h, front, rows, signedIn, house, le, listed, rfl⟩ :=
    members_listed (fun l mem => (orderly l mem).plain) logged route
  refine ⟨u.js, rows.map rowJs, heard_eq (by simp) heard, fun member mem => ?_⟩
  obtain ⟨row, there, rfl⟩ := List.mem_map.mp mem
  exact ⟨h, front, row, recalled_of_answer (fun l mem => (orderly l mem).own) logged signedIn house,
    le, listed.mem_iff.mp there, rfl⟩

theorem groups_told (orderly : ∀ l ∈ ls, OrderlyStep P l)
    (logged : .answered c (.json v) user ∈ (run (server P) ls (startUp P)).world.log)
    (heard : Hears v data) (route : c.req.route = .getGroups) :
    Callback.Told P c.req.sid (run (server P) ls (startUp P)).world.log data .getGroups := by
  obtain ⟨u, rows, front, signedIn, le, rfl, reads⟩ :=
    menu_listed (fun l mem => (orderly l mem).names) logged route
  rw [heard_eq (by simp [houseGroupsJs]) heard]
  cases house : u.houseID with
  | none =>
    rw [house] at reads
    rw [show rows = [] from reads]
    exact Or.inl rfl
  | some h =>
    rw [house] at reads
    exact Or.inr ⟨h, front, rows,
      recalled_of_answer (fun l mem => (orderly l mem).own) logged signedIn house, le, rfl, reads⟩

/-- What a callback hears is what it expects. -/
theorem callback_told {σ : Config P} {o : Outgoing} (leads : Leads (startUp P) σ)
    (proper : o.Proper P who σ.world.log) (answer : AnswerOf who σ o c v)
    (heard : Hears v data) :
    o.callback.Told P who σ.world.log data := by
  obtain ⟨ls, orderly, rfl⟩ := leads
  obtain ⟨⟨user, logged⟩, env, request⟩ := answer
  have fits : ∀ {route : Route}, o.callback.route = some route → c.req.route = route :=
    fun same => (congrArg Request.route request).trans (proper.fits _ same)
  have own : c.req.sid = who := congrArg Request.sid request
  cases callback : o.callback with
  | feed call =>
    have route := proper.fits call.route (by rw [callback]; rfl)
    exact call_told orderly logged heard request proper.names route
  | house => exact own ▸ house_told orderly logged heard (fits (by rw [callback]; rfl))
  | houseDetails =>
    exact own ▸ houseDetails_told orderly logged heard (fits (by rw [callback]; rfl))
  | getUsers => exact own ▸ users_told orderly logged heard (fits (by rw [callback]; rfl))
  | getGroups => exact own ▸ groups_told orderly logged heard (fits (by rw [callback]; rfl))
  | createHouse =>
    have made := (run_pagesMade fun l mem => (orderly l mem).own).sent c v user logged
    simp only [MadeOf, fits (by rw [callback]; rfl : o.callback.route = some .createHouse)] at made
    obtain ⟨name, rent, packet, found, rfl⟩ := made
    exact ⟨c, name, rent, packet, found, own, heard_eq (by simp) heard⟩
  | user => trivial
  | log => trivial

end Told

/-- The browsers rely on what the registers say of the answers, and the server on requests
that can be read and name what has been answered. -/
def contract (P : Platform) : Clients.Contract browsing (backend P) where
  Good σ := Leads (startUp P) σ
  Le σ σ' := Leads σ σ'
  Allowed l := OrderlyStep P l
  Asks who σ o := o.2.Proper P who σ.world.log
  Serves who σ rid o := ServedAs who σ rid o.2
  Knows who σ b := BrowserShows P who σ.world.log b
  refl := Leads.refl
  asks_mono le proper := proper.later le.log
  serves_mono := by
    rintro who σ σ' rid o le ⟨σ₀, env, start, number, since⟩
    exact ⟨σ₀, env, start, number, since.trans le⟩
  knows_mono le shows s mem := (shows s mem).later le.log
  step_good good orderly := ⟨good.trans (.step orderly _), .step orderly _⟩
  take_good := by
    intro who env o σ good proper
    have orderly : OrderlyStep P (.arrive (o.2.request who env)) :=
      ⟨trivial, fun q same => by cases same; exact request_orderly proper.orderly who env⟩
    exact ⟨good.trans (.step orderly σ), .step orderly σ, σ, env, good, rfl, .refl _⟩
  input_knows d good shows := ⟨(input_keeps d shows).shows, (input_keeps d shows).sent⟩
  answered_knows := by
    intro who σ b rid o data good served proper replied shows
    obtain ⟨c, v, answer, heard⟩ := served_answer served replied
    have told := callback_told good proper answer heard
    have keeps : BrowserKeeps P who σ.world.log (b.answered o data) :=
      act_keeps (fun s shown => controller_answered told shown) shows
    exact ⟨keeps.shows, keeps.sent⟩

/-- The requests of others that arrive during a run are orderly, and nobody else touches the
tables. -/
def SiteMoves (ms : List (SiteMove P)) : Prop := ∀ l, .step l ∈ ms → OrderlyStep P l

theorem site_holds {ms : List (SiteMove P)} (others : SiteMoves ms) (sessions : List Nat) :
    (contract P).Holds (Site.run ms (Site.opened P sessions)) := by
  refine Clients.Contract.run_holds ?_ ⟨Leads.refl _, fun seat mem => ?_⟩
  · have each : ∀ m ∈ ms, ∀ l, m = .step l → OrderlyStep P l :=
      fun m mem l same => others l (same ▸ mem)
    refine (Traces.along_of_forall each _).mono fun site m allowed => ?_
    cases m with
    | step l => exact allowed l rfl
    | _ => trivial
  · obtain ⟨who, -, rfl⟩ := List.mem_map.mp mem
    exact ⟨fun _ mem => absurd mem List.not_mem_nil, fun _ mem => absurd mem List.not_mem_nil,
      fun _ mem => absurd mem List.not_mem_nil⟩

namespace Site

def log (site : Site P) : List Event := site.service.world.log

def tables (site : Site P) : Tables := site.service.world.db.tables

end Site

section Houses

variable {σ : Config P} {c : Ctx}

/-- A statement that has completed left houses that are all still there. -/
theorem houses_since {s : Stmt} {r : s.Reply} (leads : Leads (startUp P) σ)
    (logged : .completed c s r ∈ σ.world.log) : ∃ db db' : Database P.collate,
      exec P.collate s db = some (r, db') ∧ db'.tables.house <+: σ.world.db.tables.house := by
  obtain ⟨ls, orderly, rfl⟩ := leads
  obtain ⟨front, rest, split⟩ := List.append_of_mem logged
  obtain ⟨before, l, after, rfl, -, -, he⟩ :=
    executedIn_of_logged (fun l mem => (orderly l mem).own) rfl split
  have plain : ∀ l' ∈ before ++ [l] ++ after, PlainLabel P l' :=
    fun l' mem => (orderly l' (by simpa using mem)).plain
  refine ⟨_, _, he, ?_⟩
  rw [show before ++ l :: after = before ++ [l] ++ after by simp, run_append _ (before ++ [l])]
  exact (sent_run_grows (fun l' mem => plain l' (List.mem_append_right _ mem))
    (run_plain_sent (fun l' mem => plain l' (List.mem_append_left _ mem))
      (startUp_sent _))).house

/-- The details that were looked up are those of a house in the table. -/
theorem house_looked_up (leads : Leads (startUp P) σ) {h : Int} {rows : List (Row HouseCol)}
    {row : Row HouseCol} (logged : .completed c (.getHouseWithID (some h)) rows ∈ σ.world.log)
    (head : rows.head? = some row) :
    row ∈ σ.world.db.tables.house ∧ row .house_id = .int h := by
  obtain ⟨db, db', he, le⟩ := houses_since leads logged
  cases he
  obtain ⟨mem, hits⟩ := List.mem_filter.mp (List.mem_of_head? head)
  have equal := (Cond.hits_iff P.collate).mp hits
  exact ⟨le.subset mem, (int_cell_lit ⟨rfl, rfl⟩ db.sound.house_typed mem h).mp equal⟩

/-- A code that was given is that of a house in the table. -/
theorem house_made (leads : Leads (startUp P) σ) {name : JsVal} {rent : Int} {packet : Packet}
    {draws : Nat → Fin 65536}
    (logged : .completed c (.createHouse name rent (houseCode draws)) packet ∈ σ.world.log) :
    ∃ row ∈ σ.world.db.tables.house, row .house_id = .int packet.insertId ∧
      row .house_code = .text (houseCode draws) := by
  obtain ⟨db, db', he, le⟩ := houses_since leads logged
  obtain ⟨row, entered, number, named⟩ := createHouse_row (houseCode_isCode draws) he
  refine ⟨row, le.subset ?_, number, named⟩
  rw [entered]
  exact List.mem_append_right _ (List.mem_singleton_self row)

end Houses

section Sample

/-- Ann signs up. -/
def annOpens : List (Label samplePlatform) := annMoves.take 6

/-- Something that Ann does on the page. -/
def doing (gs : List Controller.Gesture) : List (SiteMove samplePlatform) :=
  gs.map fun g => .input 0 (.gesture 0 g)

/-- A request of the page arrives, so many statements settle, and it is answered. -/
def serving (j statements : Nat) : List (SiteMove samplePlatform) :=
  .deliver 0 j { sid := 0, route := .feed } ::
    List.replicate statements (.step (.settle 0 false)) ++ [.receive 0 0]

/-- On her page Ann makes a house, has herself do the dishes, and looks at the tasks. -/
def annsSite : List (SiteMove samplePlatform) :=
  annOpens.map .step ++ [.input 0 (.load none)] ++
  doing [.fill .modalHouseName (some "attic"), .createHouse] ++
  serving 4 2 ++ serving 0 1 ++ serving 3 1 ++ serving 3 1 ++
  doing [.addAssignee 0, .fill .taskName (some "dishes"), .fill .taskType (some "Chore"),
    .fill .taskDueDate (some "today"), .fill .chorePriority (some "low"), .addTask] ++
  serving 4 3 ++ doing [.showEveryone] ++ serving 4 1 ++ doing [.taskSelect 0, .completeTask]

/-- The steps of others in a run. -/
def stepsOf : SiteMove P → List (Label P)
  | .step l => [l]
  | _ => []

theorem siteMoves_of_passes {check : Request → Bool} (enough : ∀ q, check q = true → q.Orderly)
    {ms : List (SiteMove P)} (passes : (ms.flatMap stepsOf).all (Label.passes check) = true) :
    SiteMoves ms := fun l mem =>
  admissible_of_passes enough passes l
    (List.mem_flatMap.mpr ⟨.step l, mem, List.mem_singleton_self l⟩)

theorem orderly_of_checks {q : Request} (checks : (q.tidily && q.namesMembers) = true) :
    q.Orderly := by
  obtain ⟨tidily, names⟩ := Bool.and_eq_true_iff.mp checks
  exact ⟨tidy_of_tidily tidily, (namesMembers_of_check names).members⟩

theorem annsSite_moves : SiteMoves annsSite :=
  siteMoves_of_passes (fun _ => orderly_of_checks) (by decide +kernel)

/-- A controller of the site that passes a check. -/
theorem exists_controller {site : Site P} {check : Controller → Bool}
    (found : site.seats.any (fun seat => seat.state.controllers.any check) = true) :
    ∃ seat ∈ site.seats, ∃ s ∈ seat.state.controllers, check s = true := by
  simpa using found

end Sample

section Sites

variable {ms : List (SiteMove P)}

theorem site_shows (others : SiteMoves ms) (sessions : List Nat) :
    ∀ seat ∈ (Site.run ms (Site.opened P sessions)).seats, ∀ s ∈ seat.state.controllers,
      Shows P seat.who (Site.run ms (Site.opened P sessions)).log s :=
  fun seat mem => ((site_holds others sessions).sits seat mem).knows

/-- However many browsers run beside the server and whatever their users do, the tables are
what the registers make of the log: no page sends what a handler cannot read. -/
theorem site_registers (P : Platform) (ms : List (SiteMove P)) (sessions : List Nat)
    (others : SiteMoves ms) :
    ShowsHousing (Site.run ms (Site.opened P sessions)).service.world.db
        (residences (Site.run ms (Site.opened P sessions)).log) ∧
      ShowsGroups (Site.run ms (Site.opened P sessions)).service.world.db
        (groupBook (Site.run ms (Site.opened P sessions)).log) ∧
      ShowsDirectory (Site.run ms (Site.opened P sessions)).service.world.db
        (directory (Site.run ms (Site.opened P sessions)).log) ∧
      ShowsBook (Site.run ms (Site.opened P sessions)).service.world.db
        (bookOf P (Site.run ms (Site.opened P sessions)).log) ∧
      ShowsRemarks (Site.run ms (Site.opened P sessions)).service.world.db
        (remarks P (Site.run ms (Site.opened P sessions)).log) ∧
      (Site.run ms (Site.opened P sessions)).tables.user =
        (census (Site.run ms (Site.opened P sessions)).log).rows := by
  obtain ⟨ls, orderly, same⟩ := (site_holds others sessions).good
  unfold Site.log Site.tables
  rw [same]
  have houses := housing_refines.replayed fun l mem => admissible_of_own (orderly l mem).own
  have groups := registers_refine.replayed fun l mem => (orderly l mem).names
  have tasks := tasks_refine.replayed fun l mem => (orderly l mem).tidy
  have comments := remarks_refine.replayed fun l mem => (orderly l mem).plain.admissible
  have users := census_refines.replayed fun l mem => (orderly l mem).plain.admissible
  rw [replay_both, groupBook_eq] at groups
  rw [replay_both] at tasks
  rw [census_eq] at users
  exact ⟨houses, groups.2, tasks.1, tasks.2, comments, users.rows⟩

theorem site_registers_sample :
    (Site.run annsSite (Site.opened samplePlatform [0])).tables.task ≠ [] ∧
    ShowsBook (Site.run annsSite (Site.opened samplePlatform [0])).service.world.db
      (bookOf samplePlatform (Site.run annsSite (Site.opened samplePlatform [0])).log) :=
  ⟨by decide +kernel, (site_registers samplePlatform annsSite [0] annsSite_moves).2.2.2.1⟩

/-- The name, the rent and the code on a page are those of one house in the table, which the
session has remembered; the code given for a new house is that of the house it was made for;
and whether there is a house is what the register said at one moment. -/
theorem pages_show_houses (P : Platform) (ms : List (SiteMove P)) (sessions : List Nat)
    (others : SiteMoves ms) : ∀ seat ∈ (Site.run ms (Site.opened P sessions)).seats,
      ∀ s ∈ seat.state.controllers,
        (s.houseName = .undefined ∧ s.rentTotal = .undefined ∧ s.houseCode = .undefined ∨
          ∃ h, Recalled seat.who (Site.run ms (Site.opened P sessions)).log h ∧
            ∃ row ∈ (Site.run ms (Site.opened P sessions)).tables.house,
              row .house_id = .int h ∧ s.houseName = cellJs (row .house_name) ∧
              s.rentTotal = cellJs (row .rent_total) ∧
              s.houseCode = cellJs (row .house_code)) ∧
        (s.generatedHouseCode = .undefined ∨ ∃ c name rent packet,
          .completed c (.createHouse name rent (houseCode c.req.draws)) packet ∈
            (Site.run ms (Site.opened P sessions)).log ∧ c.req.sid = seat.who ∧
          s.generatedHouseCode = .str (houseCode c.req.draws) ∧
          ∃ row ∈ (Site.run ms (Site.opened P sessions)).tables.house,
            row .house_id = .int packet.insertId ∧
            row .house_code = .text (houseCode c.req.draws)) ∧
        ∀ ifHouseID, s.ifHouseID = some ifHouseID →
          HomeOf seat.who (Site.run ms (Site.opened P sessions)).log ifHouseID := by
  intro seat mem s there
  have shows := site_shows others sessions seat mem s there
  have leads := (site_holds others sessions).good
  refine ⟨shows.house.imp_right ?_, shows.code.imp_right ?_, shows.home⟩
  · rintro ⟨h, c, rows, row, recalled, found, head, name, rent, code⟩
    obtain ⟨stays, number⟩ := house_looked_up leads found head
    exact ⟨h, recalled, row, stays, number, name, rent, code⟩
  · rintro ⟨c, name, rent, packet, found, own, given⟩
    exact ⟨c, name, rent, packet, found, own, given, house_made leads found⟩

theorem pages_show_houses_sample :
    ∃ seat ∈ (Site.run annsSite (Site.opened samplePlatform [0])).seats,
    ∃ s ∈ seat.state.controllers, s.houseName ≠ .undefined ∧
      ∃ h, Recalled seat.who (Site.run annsSite (Site.opened samplePlatform [0])).log h ∧
        ∃ row ∈ (Site.run annsSite (Site.opened samplePlatform [0])).tables.house,
          row .house_id = .int h ∧ s.houseName = cellJs (row .house_name) ∧
          s.rentTotal = cellJs (row .rent_total) ∧ s.houseCode = cellJs (row .house_code) := by
  obtain ⟨seat, mem, s, there, shown⟩ := exists_controller (by decide +kernel :
    (Site.run annsSite (Site.opened samplePlatform [0])).seats.any (fun seat =>
      seat.state.controllers.any fun s => s.houseName.truthy) = true)
  have named : s.houseName ≠ .undefined := fun none => by rw [none] at shown; cases shown
  have houses := (pages_show_houses samplePlatform annsSite [0] annsSite_moves seat mem s there).1
  exact ⟨seat, mem, s, there, named, houses.resolve_left fun none => named none.1⟩

end Sites

end OneRoof
