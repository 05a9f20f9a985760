import OneRoof.Effects
import OneRoof.Server

/-!
# Which statements a request sends

One relation lists, for a request and the user of its session, every statement
that its handler can ever send, in whatever order and with whatever outcomes.
The handlers are opened here; what is proved of all of them starts from the list.
-/

namespace OneRoof

open Sql Async Async.Prog Prog

section Combinators

variable {φ : Stmt → Prop}

theorem done_issues : (done : Prog).Issues φ := trivial

theorem send_issues (answer : Answer) (user : Option SessionUser) :
    (send answer user).Issues φ := by
  intro b
  cases b <;> trivial

theorem query_issues {s : Stmt} {k : Option s.Reply → Prog} (hs : φ s)
    (hk : ∀ r, (k r).Issues φ) : (query s k).Issues φ :=
  ⟨hs, hk, trivial⟩

theorem start_issues {s : Stmt} {rest : Prog} (hs : φ s) (hr : rest.Issues φ) :
    (start s rest).Issues φ :=
  ⟨hs, fun _ => trivial, hr⟩

theorem thenRun_issues {α : Type} {f : α → Prog} (hf : ∀ r, (f r).Issues φ) (o : Option α) :
    (thenRun f o).Issues φ := by
  cases o with
  | none => trivial
  | some r => exact hf r

theorem thenCatch_issues {α : Type} {f : α → Prog} {h : Prog} (hf : ∀ r, (f r).Issues φ)
    (hh : h.Issues φ) (o : Option α) : (thenCatch f h o).Issues φ := by
  cases o with
  | none => exact hh
  | some r => exact (hf r).recover hh

theorem attempt_issues {α : Type} {v : Option α} {f : α → Prog}
    (hf : ∀ a, v = some a → (f a).Issues φ) : (attempt v f).Issues φ := by
  cases v with
  | none => trivial
  | some a => exact hf a rfl

theorem withUser_issues {user : Option SessionUser} {f : SessionUser → Prog}
    (hf : ∀ u, user = some u → (f u).Issues φ) : (withUser user f).Issues φ :=
  attempt_issues hf

theorem startEach_issues {f : JsVal → Option Stmt} {broken : Bool} {rest : Prog}
    (hf : ∀ v s, f v = some s → φ s) (hr : rest.Issues φ) (vs : List JsVal) :
    (startEach f broken rest vs).Issues φ := by
  induction vs with
  | nil =>
    cases broken with
    | true => trivial
    | false => exact hr
  | cons v vs ih => exact attempt_issues fun s hs => start_issues (hf v s hs) ih

/-- Only the elements of the list are looped over. -/
theorem startEach_issues_mem {φ : Stmt → Prop} {f : JsVal → Option Stmt} {broken : Bool}
    {rest : Prog} {vs : List JsVal} (hf : ∀ v ∈ vs, ∀ s, f v = some s → φ s)
    (hr : rest.Issues φ) : (startEach f broken rest vs).Issues φ := by
  induction vs with
  | nil =>
    cases broken with
    | true => trivial
    | false => exact hr
  | cons v vs ih =>
    exact attempt_issues fun s hs => start_issues (hf v List.mem_cons_self s hs)
      (ih fun v' mem => hf v' (List.mem_cons_of_mem v mem))

theorem bankGetUser_issues {email : JsVal} {k : Option (List (Row UserCol)) → Prog}
    (hs : φ (.getUser email)) (hk : ∀ r, (k r).Issues φ) : (bankGetUser email k).Issues φ :=
  start_issues hs (query_issues hs hk)

theorem bankGetUserFB_issues {profileId : JsVal} {k : Option (List (Row UserCol)) → Prog}
    (hs : φ (.getUserFB profileId)) (hk : ∀ r, (k r).Issues φ) :
    (bankGetUserFB profileId k).Issues φ :=
  start_issues hs (query_issues hs hk)

end Combinators

/-- The task `addTask` makes of a request. -/
def newTask (req : Request) : NewTask where
  taskID := guid req.draws
  taskName := req.body.get "taskName"
  taskTime := req.clock
  taskType := req.body.get "taskType"
  taskStatus := "incomplete"
  taskDueDate := req.body.get "taskDueDate"
  taskDescription := req.body.get "taskDescription"

/-- The statements that the handler of a request sends. -/
inductive Sends (P : Platform) (c : Ctx) : Stmt → Prop
  | select {s : Stmt} (reads : s.isSelect = true) : Sends P c s
  | updateProfPic {u : SessionUser} {filename : String} (route : c.req.route = .upload)
      (user : c.user = some u) (file : c.req.file = some filename) :
      Sends P c (.updateProfPic u.user_id ("./uploads/" ++ filename ++ ".png"))
  | updateUserDisplayName {u : SessionUser} (route : c.req.route = .updateDispl)
      (user : c.user = some u) :
      Sends P c (.updateUserDisplayName (c.req.body.get "displayName") u.user_id)
  | updateUserPass {u : SessionUser} {pass : String} (route : c.req.route = .updatePass)
      (user : c.user = some u) (printed : (c.req.body.get "newPass").toStr = some pass) :
      Sends P c (.updateUserPass (P.hashSync pass c.req.salt) u.user_id)
  | updateUserPaymentMethod {u : SessionUser} (route : c.req.route = .updatePaymentMethod)
      (user : c.user = some u) :
      Sends P c (.updateUserPaymentMethod (c.req.body.get "newMethod") u.user_id)
  | updateUserPaymentUsername {u : SessionUser} (route : c.req.route = .updatePaymentUser)
      (user : c.user = some u) :
      Sends P c (.updateUserPaymentUsername (c.req.body.get "newUsername") u.user_id)
  | updateMobile {u : SessionUser} (route : c.req.route = .updateMobile)
      (user : c.user = some u) :
      Sends P c (.updateMobile (c.req.body.get "newMobile") u.user_id)
  | createLocal {hashPass : String} (route : c.req.route = .signup)
      (given : (credential c.req "email").truthy = true) :
      Sends P c (.createUser (newLocalUser
        (signupUser c.req (credential c.req "email") hashPass)))
  | createFacebook {profile : Profile} {token email : String}
      (route : c.req.route = .facebookCallback (some (profile, token))) :
      Sends P c (.createUser (.facebookUser (.str email) (.str (profileName profile))
        (.str token) (.str profile.id)))
  | createHouse (route : c.req.route = .createHouse) :
      Sends P c (.createHouse (c.req.body.get "setHouseName") 100 (houseCode c.req.draws))
  | addUserToHouse {u : SessionUser} {houseId : Option Int} (user : c.user = some u)
      (route : c.req.route = .createHouse ∨ c.req.route = .joinHouse) :
      Sends P c (.addUserToHouse houseId u.user_id)
  | createGroup (route : c.req.route = .createGroup) :
      Sends P c (.createGroup (c.req.body.get "group_name") (c.req.body.get "group_descr"))
  | addMember {group user : JsVal} (route : c.req.route = .createGroup) :
      Sends P c (.addUserToGroup group user)
  | joinGroup {u : SessionUser} (route : c.req.route = .joinGroup) (user : c.user = some u) :
      Sends P c (.addUserToGroup (c.req.body.get "groupId") (.ofInt u.user_id))
  | createTask (route : c.req.route = .addTask) : Sends P c (.createTask (newTask c.req))
  | updateUserTaskTable {u : SessionUser} {taskOwnerID : JsVal} (route : c.req.route = .addTask)
      (user : c.user = some u) :
      Sends P c (.updateUserTaskTable (guid c.req.draws) taskOwnerID u.user_id)
  | updateChoreTable (route : c.req.route = .addTask) :
      Sends P c (.updateChoreTable (guid c.req.draws) (c.req.body.get "priority"))
  | updateBillTable {amount : Option Int} (route : c.req.route = .addTask) :
      Sends P c (.updateBillTable (guid c.req.draws) amount)
  | removeUserHouse {u : SessionUser} (route : c.req.route = .leaveHouse)
      (user : c.user = some u) : Sends P c (.removeUserHouse u.houseID u.user_id)
  | removeTask {text : String} (route : c.req.route = .deleteTask)
      (printed : (c.req.body.get "id").toStr = some text) :
      Sends P c (.removeTask c.req.clock (c.req.body.get "id"))
  | updateTask (route : c.req.route = .updateTask) :
      Sends P c (.updateTask (c.req.body.get "taskStatus") (c.req.body.get "taskId"))
  | addComment {u : SessionUser} {commentDescr taskID : JsVal}
      (route : c.req.route = .addComment) (user : c.user = some u)
      (descr : commentDescr = (c.req.body.set "creatorID" (.ofInt u.user_id)).get "commentDescr")
      (task : taskID = (c.req.body.set "creatorID" (.ofInt u.user_id)).get "taskID") :
      Sends P c (.addComment commentDescr (.ofInt u.user_id) taskID c.req.stamp)
  | deleteComment (route : c.req.route = .deleteComment) :
      Sends P c (.deleteComment (c.req.body.get "comment_id"))

section Routes

variable {P : Platform} {c : Ctx}

theorem unauthorized_issues {φ : Stmt → Prop} (user : Option SessionUser) :
    (unauthorized user).Issues φ := send_issues _ _

theorem updateColumn_issues {stmt : Option Int → Stmt}
    (hs : ∀ u, c.user = some u → Sends P c (stmt u.user_id)) :
    (updateColumn c.user stmt).Issues (Sends P c) :=
  withUser_issues fun u hu => bankGetUser_issues (.select rfl) <| thenCatch_issues
    (fun rows => by
      split
      · exact start_issues (hs u hu) trivial
      · exact send_issues _ _)
    (send_issues _ _)

theorem signup_issues (route : c.req.route = .signup) :
    (signup P c.req c.user).Issues (Sends P c) := by
  unfold signup withCredentials
  split
  · rename_i given
    refine attempt_issues fun same _ => ?_
    split
    · refine bankGetUser_issues (.select rfl) <| thenRun_issues fun rows => ?_
      split
      · refine attempt_issues fun hashPass _ => attempt_issues fun _ _ => ?_
        split
        · trivial
        · refine attempt_issues fun _ _ => query_issues (.createLocal route given.1) <|
            thenCatch_issues (fun _ => ?_) (unauthorized_issues _)
          exact bankGetUser_issues (.select rfl) <| thenRun_issues fun rows =>
            attempt_issues fun row _ => send_issues _ _
      · exact unauthorized_issues _
    · exact unauthorized_issues _
  · exact send_issues _ _

theorem login_issues : (login P c.req c.user).Issues (Sends P c) := by
  unfold login withCredentials
  split
  · refine bankGetUser_issues (.select rfl) <| thenRun_issues fun rows => ?_
    split
    · exact unauthorized_issues _
    · refine attempt_issues fun _ _ _ => attempt_issues fun valid _ => ?_
      split
      · exact send_issues _ _
      · exact unauthorized_issues _
  · exact send_issues _ _

theorem facebookCallback_issues {grant : Option (Profile × String)}
    (route : c.req.route = .facebookCallback grant) :
    (facebookCallback c.user grant).Issues (Sends P c) := by
  cases grant with
  | none => exact send_issues _ _
  | some g =>
    obtain ⟨profile, token⟩ := g
    refine bankGetUserFB_issues (.select rfl) <| thenRun_issues fun rows => ?_
    split
    · exact attempt_issues fun email _ => query_issues (.createFacebook route) <|
        thenCatch_issues (fun _ => send_issues _ _) (send_issues _ _)
    · exact send_issues _ _

theorem updatePass_issues (route : c.req.route = .updatePass) :
    (updatePass P c.req c.user).Issues (Sends P c) := by
  refine withUser_issues fun u hu => bankGetUser_issues (.select rfl) <| thenCatch_issues
    (fun rows => ?_) (send_issues _ _)
  split
  · refine fun _ => attempt_issues fun valid _ => ?_
    split
    · exact attempt_issues fun pass hp =>
        start_issues (.updateUserPass route hu hp) (send_issues _ _)
    · exact send_issues _ _
  · exact send_issues _ _

theorem gatherTasks_issues (total : Nat) (queries : List (JsVal × JsVal)) :
    (gatherTasks c.user total queries).Issues (Sends P c) := by
  induction queries with
  | nil => trivial
  | cons a rest ih =>
    refine ⟨.select rfl, thenRun_issues fun rows complete => ?_, ih⟩
    cases complete with
    | false => trivial
    | true =>
      intro ok
      cases ok <;> trivial

theorem tasks_issues : (tasks c.req c.user).Issues (Sends P c) := by
  refine attempt_issues fun _ _ => ?_
  split
  · split
    · exact send_issues _ _
    · exact gatherTasks_issues _ _
    · refine startEach_issues (fun v s hs => ?_) done_issues _
      obtain ⟨a, -, rfl⟩ := Option.map_eq_some_iff.mp hs
      exact .select rfl
  · trivial

theorem addTask_issues (route : c.req.route = .addTask) :
    (addTask c.req c.user).Issues (Sends P c) := by
  refine query_issues (.createTask route) <| thenCatch_issues (fun _ => ?_) (send_issues _ _)
  refine Issues.andThen (attempt_issues fun owners _ => ?_) (attempt_issues fun chore _ => ?_)
  · refine startEach_issues (fun o s hs => ?_) done_issues _
    obtain ⟨owner, -, hs⟩ := Option.bind_eq_some_iff.mp hs
    obtain ⟨u, hu, hs⟩ := Option.bind_eq_some_iff.mp hs
    cases hs
    exact .updateUserTaskTable route hu
  · split
    · exact ⟨.updateChoreTable route, thenCatch_issues (fun _ => send_issues _ _) trivial,
        send_issues _ _⟩
    · exact attempt_issues fun amount _ => start_issues (.updateBillTable route) (send_issues _ _)

theorem createGroup_issues (route : c.req.route = .createGroup) :
    (createGroup c.req).Issues (Sends P c) := by
  refine query_issues (.createGroup route) <| thenRun_issues fun rows =>
    attempt_issues fun members _ => startEach_issues (fun m s hs => ?_) done_issues _
  obtain ⟨user_id, -, hs⟩ := Option.bind_eq_some_iff.mp hs
  obtain ⟨text, -, hs⟩ := Option.bind_eq_some_iff.mp hs
  cases hs
  exact .addMember route

/-- A handler sends nothing but what is listed. -/
theorem route_issues (P : Platform) (c : Ctx) : (route P c).Issues (Sends P c) := by
  unfold OneRoof.route
  cases hr : c.req.route with
  | upload =>
    refine withUser_issues fun u hu => attempt_issues fun filename hf => ?_
    dsimp only
    split
    · exact start_issues (.updateProfPic hr hu hf) (send_issues _ _)
    · exact send_issues _ _
  | signout => exact send_issues _ _
  | uploads => exact attempt_issues fun _ _ => send_issues _ _
  | settings =>
    refine withUser_issues fun u _ => query_issues (.select rfl) <| thenRun_issues fun rows => ?_
    split
    · exact query_issues (.select rfl) <| thenRun_issues fun rs =>
        attempt_issues fun h _ => send_issues _ _
    · exact send_issues _ _
  | feed => exact send_issues _ _
  | house =>
    refine withUser_issues fun u _ => query_issues (.select rfl) <| thenRun_issues fun rows => ?_
    split <;> exact send_issues _ _
  | houseDetails =>
    exact withUser_issues fun u _ => query_issues (.select rfl) <| thenRun_issues fun _ =>
      send_issues _ _
  | profile =>
    exact withUser_issues fun u _ => bankGetUser_issues (.select rfl) <| thenRun_issues fun _ =>
      send_issues _ _
  | loadProfile => exact withUser_issues fun u _ => send_issues _ _
  | getUsers =>
    refine withUser_issues fun u _ => ?_
    split
    · exact query_issues (.select rfl) <| thenRun_issues fun _ => send_issues _ _
    · trivial
  | joinGroup => exact withUser_issues fun u hu => start_issues (.joinGroup hr hu) done_issues
  | login => exact login_issues
  | facebook => exact send_issues _ _
  | facebookCallback grant => exact facebookCallback_issues hr
  | updateDispl =>
    refine withUser_issues fun u hu => bankGetUser_issues (.select rfl) <| thenCatch_issues
      (fun rows => ?_) (send_issues _ _)
    split
    · exact start_issues (.updateUserDisplayName hr hu) (send_issues _ _)
    · exact send_issues _ _
  | createHouse =>
    exact query_issues (.createHouse hr) <| thenCatch_issues
      (fun rows => withUser_issues fun u hu =>
        start_issues (.addUserToHouse hu (Or.inl hr)) (send_issues _ _)) (send_issues _ _)
  | createGroup => exact createGroup_issues hr
  | joinHouse =>
    refine query_issues (.select rfl) <| thenCatch_issues (fun rows => ?_) done_issues
    split
    · exact withUser_issues fun u hu =>
        start_issues (.addUserToHouse hu (Or.inr hr)) done_issues
    · exact send_issues _ _
  | getGroups =>
    exact withUser_issues fun u _ => query_issues (.select rfl) <| thenRun_issues fun _ =>
      send_issues _ _
  | viewUserGroups =>
    exact withUser_issues fun u _ => bankGetUser_issues (.select rfl) <| thenRun_issues fun _ =>
      attempt_issues fun row _ => query_issues (.select rfl) <| thenRun_issues fun _ =>
        send_issues _ _
  | getUserGroups =>
    exact withUser_issues fun u _ => bankGetUser_issues (.select rfl) <| thenRun_issues fun _ =>
      query_issues (.select rfl) <| thenRun_issues fun _ => send_issues _ _
  | updatePass => exact updatePass_issues hr
  | updatePaymentMethod =>
    exact updateColumn_issues fun u hu => .updateUserPaymentMethod hr hu
  | updatePaymentUser =>
    exact updateColumn_issues fun u hu => .updateUserPaymentUsername hr hu
  | updateMobile => exact updateColumn_issues fun u hu => .updateMobile hr hu
  | signup => exact signup_issues hr
  | tasks => exact tasks_issues
  | viewTasks =>
    exact withUser_issues fun u _ => attempt_issues fun _ _ => attempt_issues fun _ _ =>
      query_issues (.select rfl) <| thenCatch_issues (fun _ => send_issues _ _) (send_issues _ _)
  | accounts => trivial
  | leaveHouse =>
    exact withUser_issues fun u hu => query_issues (.removeUserHouse hr hu) <|
      thenRun_issues fun _ => send_issues _ _
  | delete => trivial
  | updateAccountName => trivial
  | transactions => trivial
  | addTask => exact addTask_issues hr
  | getComment =>
    dsimp only [getComment]
    split
    · exact query_issues (.select rfl) <| thenRun_issues fun _ => send_issues _ _
    · trivial
  | addComment =>
    refine attempt_issues fun _ _ => withUser_issues fun u hu => ?_
    dsimp only
    rw [JsVal.get_set]
    exact query_issues (.addComment hr hu rfl rfl) <| thenRun_issues fun _ => send_issues _ _
  | deleteComment =>
    exact query_issues (.deleteComment hr) <| thenRun_issues fun _ => send_issues _ _
  | deleteTask =>
    exact attempt_issues fun _ ht => query_issues (.removeTask hr ht) <| thenRun_issues fun _ =>
      send_issues _ _
  | updateTask => exact start_issues (.updateTask hr) done_issues
  | uploadProfile => trivial

theorem handler_issues (P : Platform) (c : Ctx) : (handler P c).Issues (Sends P c) :=
  (route_issues P c).recover (send_issues _ _)

end Routes

end OneRoof
