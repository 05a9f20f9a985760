import OneRoof.Lib.Effort
import OneRoof.Lib.Pairs
import OneRoof.Server

/-!
# The server comes to rest

Every request makes the server issue a number of statements that is known from the request
alone: a few for most routes, and one for each user of a list. So whatever the tables answer,
whatever fails and in whatever order, there is only so much to settle, and when no request
arrives any more the server is at rest after that.
-/

namespace OneRoof

open Sql Async Async.Prog Prog

variable {P : Platform}

/-- The elements that a loop over a field of the body visits. -/
def Request.visits (q : Request) (key : String) : Nat :=
  ((q.body.get key).loop.map fun list => list.items.length).getD 0

/-- The most statements that a request makes the server issue. -/
def Request.effort (q : Request) : Nat :=
  match q.route with
  | .upload | .house | .houseDetails | .getUsers | .joinGroup | .getGroups | .viewTasks => 1
  | .leaveHouse | .getComment | .addComment | .deleteComment | .deleteTask | .updateTask => 1
  | .settings | .profile | .login | .createHouse | .joinHouse => 2
  | .facebookCallback _ | .updateDispl | .viewUserGroups | .getUserGroups | .updatePass => 3
  | .updatePaymentMethod | .updatePaymentUser | .updateMobile => 3
  | .signup => 5
  | .createGroup => 1 + q.visits "group_members"
  | .addTask => 2 + q.visits "taskOwner"
  | .tasks => q.visits "users"
  | _ => 0

section Combinators

variable {n : Nat} {s : Stmt}

theorem spends_done : (done : Prog).Spends n := trivial

theorem spends_throw : (throw : Prog).Spends n := trivial

theorem spends_send (answer : Answer) (user : Option SessionUser) :
    (Prog.send answer user).Spends n := by
  intro b
  cases b <;> trivial

theorem spends_query {k : Option s.Reply → Prog} (callbacks : ∀ r, (k r).Spends n) :
    (query s k).Spends (n + 1) :=
  ⟨n, 0, by omega, callbacks, trivial⟩

theorem spends_start {rest : Prog} (rests : rest.Spends n) : (start s rest).Spends (n + 1) :=
  ⟨0, n, by omega, fun _ => trivial, rests⟩

theorem spends_thenRun {α : Type} {f : α → Prog} (runs : ∀ r, (f r).Spends n) (o : Option α) :
    (thenRun f o).Spends n := by
  cases o with
  | none => trivial
  | some r => exact runs r

theorem spends_thenCatch {α : Type} {f : α → Prog} {h : Prog} (runs : ∀ r, (f r).Spends n)
    (caught : h.Spends 0) (o : Option α) : (thenCatch f h o).Spends n := by
  cases o with
  | none => exact caught.mono (Nat.zero_le n)
  | some r => exact (runs r).recover caught

theorem spends_attempt {α : Type} {v : Option α} {f : α → Prog}
    (runs : ∀ a, v = some a → (f a).Spends n) : (attempt v f).Spends n := by
  cases v with
  | none => trivial
  | some a => exact runs a rfl

theorem spends_withUser {user : Option SessionUser} {f : SessionUser → Prog}
    (runs : ∀ u, (f u).Spends n) : (withUser user f).Spends n :=
  spends_attempt fun u _ => runs u

theorem spends_startEach {f : JsVal → Option Stmt} {broken : Bool} (vs : List JsVal) :
    (startEach f broken done vs).Spends vs.length := by
  induction vs with
  | nil => cases broken <;> trivial
  | cons v vs ih => exact spends_attempt fun s _ => spends_start ih

theorem spends_bankGetUser {email : JsVal} {k : Option (List (Row UserCol)) → Prog}
    (callbacks : ∀ r, (k r).Spends n) : (bankGetUser email k).Spends (n + 2) :=
  spends_start (spends_query callbacks)

end Combinators

section Handlers

variable {c : Ctx}

theorem unauthorized_spends (user : Option SessionUser) : (unauthorized user).Spends 0 :=
  spends_send _ _

theorem withCredentials_spends {n : Nat} {q : Request} {user : Option SessionUser}
    {f : JsVal → JsVal → Prog} (runs : ∀ username password, (f username password).Spends n) :
    (withCredentials q user f).Spends n := by
  unfold withCredentials
  split
  · exact runs _ _
  · exact spends_send _ _

theorem login_spends (q : Request) (user : Option SessionUser) :
    (login P q user).Spends 2 := by
  refine withCredentials_spends fun username password => spends_bankGetUser <|
    spends_thenRun fun rows => ?_
  split
  · exact unauthorized_spends user
  · refine spends_attempt fun _ _ b => spends_attempt fun valid _ => ?_
    split
    · exact spends_send _ _
    · exact unauthorized_spends user

theorem signup_spends (q : Request) (user : Option SessionUser) :
    (signup P q user).Spends 5 := by
  refine withCredentials_spends fun username password => spends_attempt fun same _ => ?_
  split
  · refine spends_bankGetUser <| spends_thenRun fun rows => ?_
    split
    · refine spends_attempt fun hashPass _ => spends_attempt fun _ _ => ?_
      split
      · trivial
      · refine spends_attempt fun _ _ => spends_query <| spends_thenCatch (fun _ => ?_)
          (unauthorized_spends user)
        exact spends_bankGetUser <| spends_thenRun fun rows => spends_attempt fun row _ =>
          spends_send _ _
    · exact (unauthorized_spends user).mono (Nat.zero_le _)
  · exact (unauthorized_spends user).mono (Nat.zero_le _)

theorem facebookCallback_spends (user : Option SessionUser) (grant : Option (Profile × String)) :
    (facebookCallback user grant).Spends 3 := by
  cases grant with
  | none => exact spends_send _ _
  | some given =>
    refine spends_start <| spends_query (n := 1) <| spends_thenRun fun rows => ?_
    split
    · exact spends_attempt fun email _ => spends_query <|
        spends_thenCatch (fun _ => spends_send _ _) (spends_send _ _)
    · exact spends_send _ _

theorem updateColumn_spends (user : Option SessionUser) (stmt : Option Int → Stmt) :
    (updateColumn user stmt).Spends 3 := by
  refine spends_withUser fun u => spends_bankGetUser (n := 1) <| spends_thenCatch (fun rows => ?_)
    (spends_send _ _)
  split
  · exact spends_start spends_done
  · exact spends_send _ _

theorem createGroup_spends (q : Request) :
    (createGroup q).Spends (1 + q.visits "group_members") := by
  rw [Nat.add_comm]
  refine spends_query <| spends_thenRun fun rows => spends_attempt fun members looped => ?_
  rw [Request.visits, looped]
  exact spends_startEach members.items

theorem gatherTasks_spends (user : Option SessionUser) (total : Nat) (l : List (JsVal × JsVal)) :
    (gatherTasks user total l).Spends l.length := by
  induction l with
  | nil => trivial
  | cons a l ih =>
    refine ⟨0, l.length, by simp [Nat.add_comm], spends_thenRun fun rows complete => ?_, ih⟩
    cases complete with
    | true =>
      intro ok
      cases ok <;> trivial
    | false => trivial

theorem tasks_spends (q : Request) (user : Option SessionUser) :
    (tasks q user).Spends (q.visits "users") := by
  refine spends_attempt fun _ _ => ?_
  cases users : q.body.get "users" with
  | arr items =>
    have visited : q.visits "users" = items.length := by
      rw [Request.visits, users]
      rfl
    rw [visited]
    dsimp only
    split
    · exact spends_send _ _
    · rename_i queries mapped
      rw [(forall₂_of_mapM mapped).length_eq]
      exact gatherTasks_spends user _ _
    · exact spends_startEach items
  | _ => exact spends_throw

theorem addTask_spends (q : Request) (user : Option SessionUser) :
    (addTask q user).Spends (2 + q.visits "taskOwner") := by
  have sum : 2 + q.visits "taskOwner" = q.visits "taskOwner" + 1 + 1 := by omega
  rw [sum]
  refine spends_query <| spends_thenCatch (fun _ => Spends.andThen ?_ ?_) (spends_send _ _)
  · refine spends_attempt fun owners looped => ?_
    rw [Request.visits, looped]
    exact spends_startEach owners.items
  · refine spends_attempt fun chore _ => ?_
    split
    · exact ⟨0, 0, by omega, spends_thenCatch (fun _ => spends_send _ _) trivial, spends_send _ _⟩
    · exact spends_attempt fun amount _ => spends_start (spends_send _ _)

theorem getComment_spends (q : Request) (user : Option SessionUser) :
    (getComment q user).Spends 1 := by
  unfold getComment
  split
  · exact spends_query <| spends_thenRun fun response => spends_send _ _
  · exact spends_done

theorem route_spends (P : Platform) (c : Ctx) :
    (OneRoof.route P c).Spends c.req.effort := by
  unfold OneRoof.route Request.effort
  cases c.req.route with
  | upload =>
    refine spends_withUser fun u => spends_attempt fun filename _ => ?_
    dsimp only
    split
    · exact spends_start (spends_send _ _)
    · exact spends_send _ _
  | uploads => exact spends_attempt fun img _ => spends_send _ _
  | settings =>
    refine spends_withUser fun u => spends_query <| spends_thenRun fun rows => ?_
    split
    · exact spends_query <| spends_thenRun fun rs => spends_attempt fun h _ => spends_send _ _
    · exact spends_send _ _
  | house =>
    refine spends_withUser fun u => spends_query <| spends_thenRun fun response => ?_
    split
    · exact spends_send _ _
    · exact spends_send _ _
  | houseDetails =>
    exact spends_withUser fun u => spends_query <| spends_thenRun fun response => spends_send _ _
  | getGroups =>
    exact spends_withUser fun u => spends_query <| spends_thenRun fun response => spends_send _ _
  | leaveHouse =>
    exact spends_withUser fun u => spends_query <| spends_thenRun fun response => spends_send _ _
  | profile =>
    exact spends_withUser fun u => spends_bankGetUser <| spends_thenRun fun response =>
      spends_send _ _
  | loadProfile => exact spends_withUser fun u => spends_send _ _
  | getUsers =>
    refine spends_withUser (n := 1) fun u => ?_
    split
    · exact spends_query <| spends_thenRun fun rows => spends_send _ _
    · exact spends_done
  | joinGroup => exact spends_withUser fun u => spends_start spends_done
  | login => exact login_spends _ _
  | signup => exact signup_spends _ _
  | facebookCallback grant => exact facebookCallback_spends _ grant
  | updateDispl =>
    refine spends_withUser fun u => spends_bankGetUser <| spends_thenCatch (fun rows => ?_)
      (spends_send _ _)
    split
    · exact spends_start (spends_send _ _)
    · exact spends_send _ _
  | createHouse =>
    exact spends_query <| spends_thenCatch
      (fun rows => spends_withUser fun u => spends_start (spends_send _ _)) (spends_send _ _)
  | createGroup => exact createGroup_spends _
  | joinHouse =>
    refine spends_query <| spends_thenCatch (fun rows => ?_) spends_done
    split
    · exact spends_withUser fun u => spends_start spends_done
    · exact spends_send _ _
  | viewUserGroups =>
    exact spends_withUser fun u => spends_bankGetUser <| spends_thenRun fun response =>
      spends_attempt fun row _ => spends_query <| spends_thenRun fun groups => spends_send _ _
  | getUserGroups =>
    exact spends_withUser fun u => spends_bankGetUser <| spends_thenRun fun response =>
      spends_query <| spends_thenRun fun groups => spends_send _ _
  | updatePass =>
    refine spends_withUser fun u => spends_bankGetUser <| spends_thenCatch (fun rows => ?_)
      (spends_send _ _)
    split
    · refine fun b => spends_attempt fun valid _ => ?_
      split
      · exact spends_attempt fun pass _ => spends_start (spends_send _ _)
      · exact spends_send _ _
    · exact spends_send _ _
  | updatePaymentMethod => exact updateColumn_spends _ _
  | updatePaymentUser => exact updateColumn_spends _ _
  | updateMobile => exact updateColumn_spends _ _
  | tasks => exact tasks_spends _ _
  | viewTasks =>
    exact spends_withUser fun u => spends_attempt fun _ _ => spends_attempt fun _ _ =>
      spends_query <| spends_thenCatch (fun rows => spends_send _ _) (spends_send _ _)
  | addTask => exact addTask_spends _ _
  | getComment => exact getComment_spends _ _
  | addComment =>
    exact spends_attempt fun _ _ => spends_withUser fun u => spends_query <|
      spends_thenRun fun response => spends_send _ _
  | deleteComment => exact spends_query <| spends_thenRun fun response => spends_send _ _
  | deleteTask =>
    exact spends_attempt fun _ _ => spends_query <| spends_thenRun fun response => spends_send _ _
  | updateTask => exact spends_start spends_done
  | signout | feed | facebook => exact spends_send _ _
  | accounts | delete | updateAccountName | transactions => exact spends_throw
  | uploadProfile => exact spends_done

/-- No handler issues more statements than its request is worth. -/
theorem handler_spends (P : Platform) (c : Ctx) : (handler P c).Spends c.req.effort :=
  (route_spends P c).recover (n := 0) (spends_send _ _)

end Handlers

/-- What the requests of a run are worth. -/
def efforts (ls : List (Label P)) : Nat := (ls.map (Label.effort Request.effort)).sum

theorem startUp_owing : Owing 0 (startUp P) := ⟨0, Nat.le_refl 0, .nil⟩

/-- In any run, however the statements fail and whatever others do to the tables: all that was
settled, and all that can be settled yet in any order, is no more than the requests are worth.
After that many further settlements nothing is in flight. -/
theorem server_rests (P : Platform) (ls : List (Label P)) :
    (∀ ls', Along (server P) Settlement ls' (run (server P) ls (startUp P)) →
      settlements (server P) ls (startUp P) + ls'.length ≤ efforts ls) ∧
    ∀ lost, (run (server P) (ls ++ List.replicate (efforts ls) (.settle 0 lost))
      (startUp P)).pending = [] := by
  obtain ⟨m, owing, total⟩ := run_owing (M := server P)
    (fun q w => handler_spends P ⟨w.nextReq, q, w.store q.sid⟩) ls startUp_owing
  rw [Nat.zero_add] at total
  refine ⟨fun ls' settles => ?_, fun lost => ?_⟩
  · have left := length_le_owing settles owing
    rw [efforts]
    omega
  · rw [run_append]
    refine drained lost (owing.mono ?_)
    rw [efforts]
    omega

/-- A sign-up can take as many settlements as it is worth. -/
example : settlements (server samplePlatform)
    (.arrive { sid := 0, route := .signup, body := .obj [("email", .str "ann@x"),
      ("password", .str "pw"), ("confirmPass", .str "pw"), ("displayName", .str "Ann")] } ::
      List.replicate 9 (.settle 0 false)) (startUp samplePlatform) = 5 := by decide +kernel

end OneRoof
