import OneRoof.Lookups

/-!
# Two runs that differ in the credentials of others

Every handler is followed on both sides at once, and with it a whole run of the requests of
one user. The bodies show the difference in the rows of other users and nowhere else. What
has to be excluded for that is shown at the end to tell more.
-/

namespace OneRoof

open Sql Async Async.Prog Prog

variable {P : Platform}

section Handlers

variable {a : Int} {c : Ctx}

theorem first_shown {rows rows' : List (Row UserCol)}
    (same : rows.map (hideRow a) = rows'.map (hideRow a)) :
    (firstJs rows).hide a = (firstJs rows').hide a := by
  rw [hide_first, hide_first, same]

theorem rows_shown {rows rows' : List (Row UserCol)}
    (same : rows.map (hideRow a) = rows'.map (hideRow a)) :
    (rowsJs rows).hide a = (rowsJs rows').hide a := by
  rw [hide_rows, hide_rows, same]

theorem houseGroups_shown
    {rows rows' : List (Row UserGroupCol × Row UserCol × Row HouseUserCol × Row GroupCol)}
    (same : rows.map (hideMember a) = rows'.map (hideMember a)) :
    (houseGroupsJs rows).hide a = (houseGroupsJs rows').hide a := by
  rw [hide_houseGroups, hide_houseGroups, same]

theorem taskRows_shown {rows rows' : List (Row UserCol × Row UserTaskCol × Row TaskCol)}
    (same : rows.map (fun r => (hideRow a r.1, r.2)) = rows'.map (fun r => (hideRow a r.1, r.2))) :
    (taskRowsJs rows).hide a = (taskRowsJs rows').hide a := by
  rw [hide_taskRows, hide_taskRows, same]

theorem send_alike {x x' : Answer} (same : x.hide a = x'.hide a) (user : Option SessionUser) :
    (send x user).Alike (secrecy P a) c (send x' user) := by
  refine .act (congrArg (Act.send · user) same) fun ok => ?_
  cases ok
  · exact .throw
  · exact .done

theorem json_alike {v v' : JsVal} (same : v.hide a = v'.hide a) (user : Option SessionUser) :
    (send (.json v) user).Alike (secrecy P a) c (send (.json v') user) := by
  apply send_alike
  rw [Answer.hide, Answer.hide, same]

theorem start_alike {s : Stmt} {rest rest' : Prog} (more : rest.Alike (secrecy P a) c rest') :
    (start s rest).Alike (secrecy P a) c (start s rest') :=
  .issue .done (fun _ _ _ => .done) more

theorem query_thenRun_alike {s : Stmt} {f f' : s.Reply → Prog}
    (next : ∀ r r', (secrecy P a).reply c s r r' → (f r).Alike (secrecy P a) c (f' r')) :
    (query s (thenRun f)).Alike (secrecy P a) c (query s (thenRun f')) :=
  .issue .throw next .done

theorem query_thenCatch_alike {s : Stmt} {f f' : s.Reply → Prog} {h h' : Prog}
    (next : ∀ r r', (secrecy P a).reply c s r r' → (f r).Alike (secrecy P a) c (f' r'))
    (caught : h.Alike (secrecy P a) c h') :
    (query s (thenCatch f h)).Alike (secrecy P a) c (query s (thenCatch f' h')) :=
  .issue caught (fun r r' alike => (next r r' alike).recover caught) .done

theorem attempt_alike {α : Type} {v : Option α} {f f' : α → Prog}
    (next : ∀ x, v = some x → (f x).Alike (secrecy P a) c (f' x)) :
    (attempt v f).Alike (secrecy P a) c (attempt v f') := by
  cases v with
  | none => exact .throw
  | some x => exact next x rfl

theorem withUser_alike {user : Option SessionUser} {f f' : SessionUser → Prog}
    (next : ∀ u, user = some u → (f u).Alike (secrecy P a) c (f' u)) :
    (withUser user f).Alike (secrecy P a) c (withUser user f') :=
  attempt_alike next

/-- The statements whose rows are shown with users in them. -/
def Stmt.showsUsers : Stmt → Bool
  | .getUser _ | .getUserFB _ | .getUsersInHouse _ | .getHouseGroups _
  | .getTasksForUser _ _ => true
  | _ => false

theorem hide_plain {s : Stmt} (plain : s.showsUsers = false) (r : s.Reply) : s.hide a r = r := by
  cases s <;> first | rfl | cases plain

/-- A program that sees no user does the same in both runs. -/
theorem alike_of_plain {p : Prog} (plain : p.Issues fun s => s.showsUsers = false) :
    p.Alike (secrecy P a) c p := by
  induction p with
  | done => exact .done
  | throw => exact .throw
  | issue s k rest ih more =>
    refine .issue (ih none (plain.2.1 none)) (fun r r' alike => ?_) (more plain.2.2)
    have same : r = r' := by
      rw [← hide_plain (a := a) plain.1 r, alike.1, hide_plain plain.1]
    rw [same]
    exact ih (some r') (plain.2.1 (some r'))
  | act x k ih => exact .act rfl fun b => ih b (plain b)

/-- The first rows of two alike replies. -/
theorem head_alike {rows rows' : List (Row UserCol)}
    (same : rows.map (hideRow a) = rows'.map (hideRow a)) :
    Option.Rel (fun x y => hideRow a x = hideRow a y) rows.head? rows'.head? := by
  rw [map_eq_map_iff_forall₂] at same
  cases same with
  | nil => exact .none
  | cons first rest => exact .some first

theorem length_alike {rows rows' : List (Row UserCol)}
    (same : rows.map (hideRow a) = rows'.map (hideRow a)) : rows.length = rows'.length := by
  simpa using congrArg List.length same

theorem bankGetUser_alike {email : JsVal} {k k' : Option (List (Row UserCol)) → Prog}
    (next : (query (.getUser email) k).Alike (secrecy P a) c (query (.getUser email) k')) :
    (bankGetUser email k).Alike (secrecy P a) c (bankGetUser email k') :=
  start_alike next

theorem updateColumn_alike (stmt : Option Int → Stmt) :
    (updateColumn c.user stmt).Alike (secrecy P a) c (updateColumn c.user stmt) := by
  refine withUser_alike fun u _ => bankGetUser_alike <| query_thenCatch_alike
    (fun rows rows' alike => ?_) (send_alike rfl _)
  have lengths := length_alike alike.1
  simp only [lengths]
  split
  · exact start_alike .done
  · exact send_alike rfl _

theorem updatePass_alike (route : c.req.route = .updatePass) :
    (updatePass P c.req c.user).Alike (secrecy P a) c (updatePass P c.req c.user) := by
  refine withUser_alike fun u _ => bankGetUser_alike <| query_thenCatch_alike
    (fun (rows rows' : List (Row UserCol)) alike => ?_) (send_alike rfl _)
  have heads := head_alike alike.1
  have own : ∀ row ∈ rows.head?, row .user_id = .int a := alike.2 route
  generalize rows.head? = first, rows'.head? = first' at heads own ⊢
  cases heads with
  | none => exact send_alike rfl _
  | @some x y same =>
    obtain rfl : x = y := hideRow_eq same (own x rfl)
    refine .act rfl fun _ => attempt_alike fun valid _ => ?_
    split
    · exact attempt_alike fun pass _ => start_alike (send_alike rfl _)
    · exact send_alike rfl _

theorem signedUp_alike (newUser : SessionUser) :
    (signedUp newUser).Alike (secrecy P a) c (signedUp newUser) := by
  refine bankGetUser_alike <| query_thenRun_alike fun rows rows' alike => ?_
  have heads := head_alike alike.1
  generalize rows.head? = first, rows'.head? = first' at heads ⊢
  cases heads with
  | none => exact .throw
  | @some x y same =>
    have id : x .user_id = y .user_id := hideRow_cell same rfl
    simp only [attempt, id]
    exact send_alike rfl _

theorem signup_alike :
    (signup P c.req c.user).Alike (secrecy P a) c (signup P c.req c.user) := by
  unfold signup withCredentials
  split
  · refine attempt_alike fun same _ => ?_
    split
    · refine bankGetUser_alike <| query_thenRun_alike fun rows rows' alike => ?_
      rw [length_alike alike.1]
      split
      · refine attempt_alike fun hashPass _ => attempt_alike fun _ _ => ?_
        split
        · exact .throw
        · exact attempt_alike fun _ _ => query_thenCatch_alike
            (fun _ _ _ => signedUp_alike _) (send_alike rfl _)
      · exact send_alike rfl _
    · exact send_alike rfl _
  · exact send_alike rfl _

theorem gatherTasks_alike (total : Nat) (queries : List (JsVal × JsVal)) :
    (gatherTasks c.user total queries).Alike (secrecy P a) c
      (gatherTasks c.user total queries) := by
  induction queries with
  | nil => exact .done
  | cons query rest ih =>
    refine .issue .throw (fun rows rows' alike => ?_) ih
    refine .act (congrArg (Act.push · total) (taskRows_shown alike.1)) fun complete => ?_
    cases complete with
    | false => exact .done
    | true =>
      refine .act rfl fun ok => ?_
      cases ok
      · exact .throw
      · exact .done

theorem startEach_alike {f : JsVal → Option Stmt} {broken : Bool} (vs : List JsVal) :
    (startEach f broken .done vs).Alike (secrecy P a) c (startEach f broken .done vs) := by
  induction vs with
  | nil =>
    cases broken
    · exact .done
    · exact .throw
  | cons v vs ih => exact attempt_alike fun s _ => start_alike ih

theorem tasks_alike : (tasks c.req c.user).Alike (secrecy P a) c (tasks c.req c.user) := by
  refine attempt_alike fun _ _ => ?_
  split
  · split
    · exact send_alike rfl _
    · exact gatherTasks_alike _ _
    · exact startEach_alike _
  · exact .throw

theorem updateDispl_alike :
    (updateDispl c.req c.user).Alike (secrecy P a) c (updateDispl c.req c.user) := by
  refine withUser_alike fun u _ => bankGetUser_alike <| query_thenCatch_alike
    (fun rows rows' alike => ?_) (send_alike rfl _)
  have lengths := length_alike alike.1
  simp only [lengths]
  split
  · exact start_alike (send_alike rfl _)
  · exact send_alike rfl _

theorem upload_alike : (upload c.req c.user).Alike (secrecy P a) c (upload c.req c.user) := by
  refine withUser_alike fun u _ => attempt_alike fun filename _ => ?_
  dsimp only
  split
  · exact start_alike (send_alike rfl _)
  · exact send_alike rfl _

/-- The groups are those of the user found first, whose id both replies show. -/
theorem viewUserGroups_alike :
    (viewUserGroups c.user).Alike (secrecy P a) c (viewUserGroups c.user) := by
  refine withUser_alike fun u _ => bankGetUser_alike <| query_thenRun_alike
    fun rows rows' alike => ?_
  have heads := head_alike alike.1
  generalize rows.head? = first, rows'.head? = first' at heads ⊢
  cases heads with
  | none => exact .throw
  | @some x y same =>
    have id : x .user_id = y .user_id := hideRow_cell same rfl
    simp only [attempt]
    rw [id]
    refine query_thenRun_alike fun groups groups' alike => ?_
    have same : groups = groups' := alike.1
    rw [same]
    exact send_alike rfl _

theorem createGroup_plain (req : Request) :
    (createGroup req).Issues fun s => s.showsUsers = false := by
  refine query_issues rfl <| thenRun_issues fun rows => attempt_issues fun members _ =>
    startEach_issues (fun m s hs => ?_) done_issues _
  obtain ⟨user_id, -, hs⟩ := Option.bind_eq_some_iff.mp hs
  obtain ⟨text, -, hs⟩ := Option.bind_eq_some_iff.mp hs
  cases hs
  rfl

theorem addTask_plain (req : Request) (user : Option SessionUser) :
    (addTask req user).Issues fun s => s.showsUsers = false := by
  refine query_issues rfl <| thenCatch_issues (fun _ => ?_) (send_issues _ _)
  refine Issues.andThen (attempt_issues fun owners _ => ?_) (attempt_issues fun chore _ => ?_)
  · refine startEach_issues (fun o s hs => ?_) done_issues _
    obtain ⟨owner, -, hs⟩ := Option.bind_eq_some_iff.mp hs
    obtain ⟨u, -, hs⟩ := Option.bind_eq_some_iff.mp hs
    cases hs
    rfl
  · split
    · exact ⟨rfl, thenCatch_issues (fun _ => send_issues _ _) trivial, send_issues _ _⟩
    · exact attempt_issues fun amount _ => start_issues rfl (send_issues _ _)

/-- The routes that put another user into the session. -/
def Route.logsIn : Route → Bool
  | .login | .facebookCallback _ => true
  | _ => false

/-- A handler does alike things with alike replies. -/
theorem route_alike (P : Platform) (c : Ctx) (stays : c.req.route.logsIn = false) :
    (route P c).Alike (secrecy P a) c (route P c) := by
  unfold OneRoof.route
  cases hr : c.req.route with
  | login => simp [hr, Route.logsIn] at stays
  | facebookCallback grant => simp [hr, Route.logsIn] at stays
  | profile =>
    refine withUser_alike fun u _ => bankGetUser_alike <| query_thenRun_alike
      fun rows rows' alike => json_alike ?_ _
    simp only [JsVal.hide, JsVal.hideAll, first_shown alike.1]
  | getUsers =>
    refine withUser_alike fun u _ => ?_
    split
    · refine query_thenRun_alike fun rows rows' alike => json_alike ?_ _
      simp only [JsVal.hide, JsVal.hideAll, rows_shown alike.1]
    · exact .done
  | getGroups =>
    exact withUser_alike fun u _ => query_thenRun_alike fun rows rows' alike =>
      json_alike (houseGroups_shown alike.1) _
  | viewTasks =>
    exact withUser_alike fun u _ => attempt_alike fun _ _ => attempt_alike fun _ _ =>
      query_thenCatch_alike (fun rows rows' alike =>
        json_alike (taskRows_shown alike.1) _) (send_alike rfl _)
  | viewUserGroups => exact viewUserGroups_alike
  | getUserGroups =>
    refine withUser_alike fun u _ => bankGetUser_alike <| query_thenRun_alike fun _ _ _ => ?_
    refine query_thenRun_alike fun groups groups' alike => ?_
    have same : groups = groups' := alike.1
    rw [same]
    exact send_alike rfl _
  | updateDispl => exact updateDispl_alike
  | updatePass => exact updatePass_alike hr
  | updatePaymentMethod => exact updateColumn_alike _
  | updatePaymentUser => exact updateColumn_alike _
  | updateMobile => exact updateColumn_alike _
  | signup => exact signup_alike
  | tasks => exact tasks_alike
  | upload => exact upload_alike
  | signout => exact send_alike rfl _
  | uploads => exact attempt_alike fun _ _ => send_alike rfl _
  | settings =>
    refine alike_of_plain <| withUser_issues fun u _ => query_issues rfl <| thenRun_issues
      fun rows => ?_
    split
    · exact query_issues rfl <| thenRun_issues fun rs => attempt_issues fun h _ => send_issues _ _
    · exact send_issues _ _
  | feed => exact send_alike rfl _
  | house =>
    refine alike_of_plain <| withUser_issues fun u _ => query_issues rfl <| thenRun_issues
      fun rows => ?_
    split <;> exact send_issues _ _
  | houseDetails =>
    exact alike_of_plain <| withUser_issues fun u _ => query_issues rfl <| thenRun_issues
      fun _ => send_issues _ _
  | loadProfile => exact withUser_alike fun u _ => send_alike rfl _
  | joinGroup => exact withUser_alike fun u _ => start_alike .done
  | facebook => exact send_alike rfl _
  | createHouse =>
    exact alike_of_plain <| query_issues rfl <| thenCatch_issues
      (fun rows => withUser_issues fun u _ => start_issues rfl (send_issues _ _))
      (send_issues _ _)
  | createGroup => exact alike_of_plain (createGroup_plain c.req)
  | joinHouse =>
    refine alike_of_plain <| query_issues rfl <| thenCatch_issues (fun rows => ?_) done_issues
    split
    · exact withUser_issues fun u _ => start_issues rfl done_issues
    · exact send_issues _ _
  | accounts | delete | updateAccountName | transactions => exact .throw
  | leaveHouse =>
    exact alike_of_plain <| withUser_issues fun u _ => query_issues rfl <| thenRun_issues
      fun _ => send_issues _ _
  | addTask => exact alike_of_plain (addTask_plain c.req c.user)
  | getComment =>
    dsimp only [getComment]
    split
    · exact alike_of_plain <| query_issues rfl <| thenRun_issues fun _ => send_issues _ _
    · exact .done
  | addComment =>
    exact alike_of_plain <| attempt_issues fun _ _ => withUser_issues fun u _ =>
      query_issues rfl <| thenRun_issues fun _ => send_issues _ _
  | deleteComment =>
    exact alike_of_plain <| query_issues rfl <| thenRun_issues fun _ => send_issues _ _
  | deleteTask =>
    exact alike_of_plain <| attempt_issues fun _ _ => query_issues rfl <| thenRun_issues
      fun _ => send_issues _ _
  | updateTask => exact start_alike .done
  | uploadProfile => exact .done

end Handlers

section Runs

/-- A change of password finds the row of user `a` first. -/
def FindsOwn (a : Int) (c : Ctx) (s : Stmt) (db : Database P.collate) : Prop :=
  c.req.route = .updatePass → ∀ r db', exec P.collate s db = some (r, db') →
    ∀ row ∈ s.found r, row .user_id = .int a

/-- Requests of user `a` that do not log in, and statements that compare no credential. -/
def Within (a : Int) (σ : Config P) : Label P → Prop
  | .arrive q => (σ.world.context q).userId = some a ∧ q.route.logsIn = false
  | .settle i lost => lost = false → ∀ p ∈ σ.pending[i]?,
      p.stmt.Ignorant ∧ FindsOwn a p.ctx p.stmt σ.world.db
  | .disturb _ => False

/-- The statements of user `a`. -/
def OfUser (P : Platform) (a : Int) (c : Ctx) (s : Stmt) : Prop := Sends P c s ∧ c.userId = some a

variable {a : Int} {σ σ' : Config P}

theorem handler_ofUser (c : Ctx) (user : c.userId = some a) :
    (handler P c).Issues (OfUser P a c) :=
  (handler_issues P c).mono fun _ sends => ⟨sends, user⟩

theorem step_ofUser {l : Label P} (within : Within a σ l) (sent : Bounded (OfUser P a) σ) :
    Bounded (OfUser P a) (step (server P) l σ) := by
  cases l with
  | arrive q => exact enter_bounded _ _ ⟨σ.world.next, σ.pending⟩ (handler_ofUser _ within.1) sent
  | settle i lost => exact settle_bounded i lost σ sent
  | disturb db => exact absurd within id

theorem settle_outcome {p : Pending Stmt Stmt.Reply Act Ctx} (same : World.Alike a σ.world σ'.world)
    (own : OfUser P a p.ctx p.stmt) (ignorant : p.stmt.Ignorant)
    (finds : FindsOwn a p.ctx p.stmt σ.world.db) :
    (secrecy P a).Outcome p.ctx p.stmt ((server P).exec p.ctx p.stmt σ.world)
      ((server P).exec p.ctx p.stmt σ'.world) := by
  have outcome := exec_alike same.db ignorant fun c v id writes =>
    (own.1.asked writes).2.symm.trans own.2
  change Option.Rel _ ((exec P.collate p.stmt σ.world.db).map _)
    ((exec P.collate p.stmt σ'.world.db).map _)
  generalize completes : exec P.collate p.stmt σ.world.db = x at outcome ⊢
  generalize exec P.collate p.stmt σ'.world.db = x' at outcome ⊢
  cases outcome with
  | none => exact .none
  | @some x x' both =>
    obtain ⟨-, store, bodies, gathered, next⟩ := same.logged
      (.completed p.ctx p.stmt x.1) (.completed p.ctx p.stmt x'.1) rfl rfl
    exact .some ⟨⟨both.1, fun route => finds route x.1 x.2 completes⟩,
      ⟨both.2, store, bodies, gathered, next⟩⟩

/-- One step keeps the two sides alike. -/
theorem step_alike {l : Label P} (within : Within a σ l) (sent : Bounded (OfUser P a) σ)
    (same : σ.Alike (secrecy P a) σ') :
    (step (server P) l σ).Alike (secrecy P a) (step (server P) l σ') := by
  cases l with
  | arrive q =>
    have context : σ'.world.context q = σ.world.context q := by
      rw [World.context, World.context, same.world.nextReq, same.world.store]
    rw [arrive_eq, arrive_eq, context]
    refine enter_alike (secrecy_respects P a) ?_ ⟨?_, same.pending⟩
    · exact (route_alike P _ within.2).recover (send_alike rfl _)
    · exact ⟨same.world.db, same.world.store, same.world.bodies, same.world.gathered,
        congrArg (· + 1) same.world.nextReq⟩
  | settle i lost =>
    refine settle_alike (secrecy_respects P a) i lost same fun kept p hp => ?_
    obtain ⟨ignorant, finds⟩ := within kept p hp
    exact settle_outcome same.world (sent p (List.mem_of_getElem? hp)).1 ignorant finds
  | disturb db => exact absurd within id

/-- Two databases that differ in the credentials of others give the same bodies, but for the
credentials in the rows of others that the bodies list. -/
theorem credentials_hidden (P : Platform) (a : Int) {db db' : Database P.collate}
    (agree : Agree a db db') (store : Nat → Option SessionUser) {ls : List (Label P)}
    (within : Along (server P) (Within a) ls ⟨World.fresh P db store, []⟩) :
    (run (server P) ls ⟨World.fresh P db store, []⟩).world.hiddenBodies a =
      (run (server P) ls ⟨World.fresh P db' store, []⟩).world.hiddenBodies a := by
  have sent : Bounded (OfUser P a) (⟨World.fresh P db store, []⟩ : Config P) :=
    fun p hp => absurd hp List.not_mem_nil
  have along := along_of_invariant (Bounded (OfUser P a))
    (fun σ l within sent => step_ofUser within sent)
    (fun σ l within sent => And.intro within sent) within sent
  have start : Config.Alike (secrecy P a) (⟨World.fresh P db store, []⟩ : Config P)
      ⟨World.fresh P db' store, []⟩ := ⟨⟨agree, rfl, rfl, fun _ => rfl, rfl⟩, .nil⟩
  exact (run_alike (fun σ σ' l both same => step_alike both.1 both.2 same) along start).world.bodies

end Runs

section Samples

def member (n : Int) (name email hash : String) : Row UserCol
  | .user_id => .int n
  | .displayName => .text name
  | .email => .text email
  | .hash_pass => .text hash
  | _ => .null

def benOpenTask : Row TaskCol
  | .task_id => .text "t"
  | .task_status => .text "incomplete"
  | .task_descr | .task_archived_date => .null
  | _ => .text ""

/-- Ann, who is user 1, and somebody else in her house. -/
def sharing (other : Row UserCol) : Tables :=
  { noTables with
    user := [other, member 1 "Ann" "ann@x" "annpw"],
    house := [fun | .house_id => .int 1 | .rent_total => .null | _ => .text "h"],
    houseUser := [fun _ => .int 1, fun | .house_id => .int 1 | _ => .int 2],
    task := [benOpenTask],
    userTask := [fun | .task_id => .text "t" | .user_task_id => .int 1 | _ => .int 2] }

theorem sharing_hide (name email hash hash' : String) :
    (sharing (member 2 name email hash)).hide 1 = (sharing (member 2 name email hash')).hide 1 := by
  have row : ∀ hash, hideRow 1 (member 2 name email hash) = veiled (member 2 name email "") := by
    intro hash
    funext c
    cases c <;> rfl
  simp only [sharing, Tables.hide, List.map_cons, row]

/-- Requests of user `a` that do not log in. -/
def InSession (a : Int) (σ : Config P) : Label P → Prop
  | .arrive q => (σ.world.context q).userId = some a ∧ q.route.logsIn = false
  | .settle _ _ => True
  | .disturb _ => False

/-- Two databases that differ in the credentials of others, which user `a` tells apart. -/
def Tells (P : Platform) (a : Int) (ls : List (Label P))
    (view : World P → List (Nat × Answer)) : Prop :=
  ∃ (db db' : Database P.collate) (store : Nat → Option SessionUser), Agree a db db' ∧
    Along (server P) (InSession a) ls ⟨World.fresh P db store, []⟩ ∧
    view (run (server P) ls ⟨World.fresh P db store, []⟩).world ≠
      view (run (server P) ls ⟨World.fresh P db' store, []⟩).world

def annInHouse : SessionUser where
  user_id := some 1
  email := .str "ann@x"
  displayName := .str "Ann"
  houseID := some 1

def inHouse (name email hash : String)
    (sound : Integrity samplePlatform.collate (sharing (member 2 name email hash))) :
    Database samplePlatform.collate := ⟨_, ⟨3, 2, 3, 1, 1, 2, 1⟩, sound⟩

/-- One field of the objects in the lists of a body. -/
def Answer.cells (key : String) : Answer → List (Option String)
  | .json (.arr items) => items.flatMap fun
    | .arr rows => rows.map fun o => (o.get key).toStr
    | _ => []
  | _ => []

/-- The list of the housemates shows their hashes. -/
theorem getUsers_tells : Tells samplePlatform 1
    [.arrive { sid := 0, route := .getUsers }, .settle 0 false] World.bodies := by
  refine ⟨inHouse "Ben" "ben@x" "s" (by decide +kernel),
    inHouse "Ben" "ben@x" "t" (by decide +kernel), fun _ => some annInHouse,
    ⟨sharing_hide _ _ _ _, rfl⟩, ⟨⟨rfl, rfl⟩, trivial, trivial⟩, fun same => ?_⟩
  have cells := congrArg (List.map fun b => b.2.cells "hash_pass") same
  revert cells
  decide +kernel

def askByHash : Request where
  sid := 0
  route := .tasks
  body := .obj [("users", .arr [.obj [("email", .obj [("hash_pass", .str "x")])]]),
    ("status", .str "incomplete")]

/-- An email that names the column `hash_pass` is compared with it. -/
theorem tasks_tells : Tells samplePlatform 1 [.arrive askByHash, .settle 0 false]
    (World.hiddenBodies 1) := by
  refine ⟨inHouse "Ben" "ben@x" "s" (by decide +kernel),
    inHouse "Ben" "ben@x" "ben@x" (by decide +kernel), fun _ => some annInHouse,
    ⟨sharing_hide _ _ _ _, rfl⟩, ⟨⟨rfl, rfl⟩, trivial, trivial⟩, fun same => ?_⟩
  have cells := congrArg (List.map fun b => b.2.cells "task_id") same
  revert cells
  decide +kernel

def changePassword : Request where
  sid := 0
  route := .updatePass
  body := .obj [("oldPass", .str "pw"), ("newPass", .str "new")]

/-- Where somebody else is found first under the email of the session, it is their hash that
the old password is compared with. -/
theorem updatePass_tells : Tells samplePlatform 1
    [.arrive changePassword, .settle 0 false, .settle 0 false] (World.hiddenBodies 1) := by
  refine ⟨inHouse "Ben" "ann@x" "s" (by decide +kernel),
    inHouse "Ben" "ann@x" "pw" (by decide +kernel), fun _ => some annInHouse,
    ⟨sharing_hide _ _ _ _, rfl⟩, ⟨⟨rfl, rfl⟩, trivial, trivial, trivial⟩,
    fun same => ?_⟩
  have successes := congrArg (List.map fun b => b.2.success) same
  revert successes
  decide +kernel

theorem credentials_told :
    Tells samplePlatform 1 [.arrive { sid := 0, route := .getUsers }, .settle 0 false]
      World.bodies ∧
    Tells samplePlatform 1 [.arrive askByHash, .settle 0 false] (World.hiddenBodies 1) ∧
    Tells samplePlatform 1 [.arrive changePassword, .settle 0 false, .settle 0 false]
      (World.hiddenBodies 1) :=
  ⟨getUsers_tells, tasks_tells, updatePass_tells⟩

/-- The list of the housemates shows nothing but their credentials. -/
theorem credentials_hidden_sample :
    (run (server samplePlatform) [.arrive { sid := 0, route := .getUsers }, .settle 0 false]
      ⟨World.fresh samplePlatform (inHouse "Ben" "ben@x" "s" (by decide +kernel))
        fun _ => some annInHouse, []⟩).world.hiddenBodies 1 =
    (run (server samplePlatform) [.arrive { sid := 0, route := .getUsers }, .settle 0 false]
      ⟨World.fresh samplePlatform (inHouse "Ben" "ben@x" "t" (by decide +kernel))
        fun _ => some annInHouse, []⟩).world.hiddenBodies 1 := by
  refine credentials_hidden samplePlatform 1 ⟨sharing_hide _ _ _ _, rfl⟩ _ ⟨⟨rfl, rfl⟩, ?_, trivial⟩
  intro _ p hp
  cases hp
  exact ⟨trivial, fun route => by cases route⟩

end Samples

end OneRoof
