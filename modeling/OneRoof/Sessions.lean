import OneRoof.Statements

/-!
# What a request does to its session

A handler saves the session user with its answer. Only a login, a sign-up and
the Facebook callback put another user there; every other handler saves the user
it was given, with some of its properties changed but not those that identify it.
-/

namespace OneRoof

open Sql Async Async.Prog Prog

section Combinators

variable {ψ : Act → Prop}

theorem done_acts : (done : Prog).Acts ψ := trivial

theorem send_acts {answer : Answer} {user : Option SessionUser} (h : ψ (.send answer user)) :
    (send answer user).Acts ψ :=
  ⟨h, fun b => by cases b <;> trivial⟩

theorem query_acts {s : Stmt} {k : Option s.Reply → Prog} (hk : ∀ r, (k r).Acts ψ) :
    (query s k).Acts ψ :=
  ⟨hk, trivial⟩

theorem start_acts {s : Stmt} {rest : Prog} (hr : rest.Acts ψ) : (start s rest).Acts ψ :=
  ⟨fun _ => trivial, hr⟩

theorem thenRun_acts {α : Type} {f : α → Prog} (hf : ∀ r, (f r).Acts ψ) (o : Option α) :
    (thenRun f o).Acts ψ := by
  cases o with
  | none => trivial
  | some r => exact hf r

theorem thenCatch_acts {α : Type} {f : α → Prog} {h : Prog} (hf : ∀ r, (f r).Acts ψ)
    (hh : h.Acts ψ) (o : Option α) : (thenCatch f h o).Acts ψ := by
  cases o with
  | none => exact hh
  | some r => exact (hf r).recover hh

theorem attempt_acts {α : Type} {v : Option α} {f : α → Prog}
    (hf : ∀ a, v = some a → (f a).Acts ψ) : (attempt v f).Acts ψ := by
  cases v with
  | none => trivial
  | some a => exact hf a rfl

theorem startEach_acts {f : JsVal → Option Stmt} {broken : Bool} {rest : Prog}
    (hr : rest.Acts ψ) (vs : List JsVal) : (startEach f broken rest vs).Acts ψ := by
  induction vs with
  | nil =>
    cases broken with
    | true => trivial
    | false => exact hr
  | cons v vs ih => exact attempt_acts fun s _ => start_acts ih

theorem bankGetUser_acts {email : JsVal} {k : Option (List (Row UserCol)) → Prog}
    (hk : ∀ r, (k r).Acts ψ) : (bankGetUser email k).Acts ψ :=
  start_acts (query_acts hk)

end Combinators

/-- The same person, whatever else has changed. -/
structure SessionUser.Same (u u' : SessionUser) : Prop where
  user_id : u'.user_id = u.user_id
  email : u'.email = u.email
  facebook_id : u'.facebook_id = u.facebook_id

/-- No user, or the user the request was given. -/
def Ctx.Keeps (c : Ctx) (user : Option SessionUser) : Prop :=
  ∀ u', user = some u' → ∃ u, c.user = some u ∧ u.Same u'

theorem Ctx.keeps_none (c : Ctx) : c.Keeps none := fun _ h => nomatch h

theorem Ctx.keeps_user (c : Ctx) : c.Keeps c.user := fun u' h => ⟨u', h, rfl, rfl, rfl⟩

theorem Ctx.keeps_some {c : Ctx} {u u' : SessionUser} (user : c.user = some u)
    (same : u.Same u') : c.Keeps (some u') := fun v h => by
  cases h
  exact ⟨u, user, same⟩

/-- An action that saves nobody else and compares no password. -/
def Act.Plain (c : Ctx) : Act → Prop
  | .send _ user => c.Keeps user
  | .compareSync _ => False
  | .push _ _ => True
  | .sendGathered user => c.Keeps user

/-- The routes of the three strategies, and the one that compares a password. -/
def Route.identifies : Route → Bool
  | .login | .signup | .facebookCallback _ | .updatePass => true
  | _ => false

section Routes

variable {c : Ctx} {u : SessionUser}

theorem sendUser_acts {answer : Answer} : (send answer c.user).Acts (Act.Plain c) :=
  send_acts c.keeps_user

theorem sendSame_acts {answer : Answer} {u' : SessionUser} (user : c.user = some u)
    (same : u.Same u') : (send answer (some u')).Acts (Act.Plain c) :=
  send_acts (Ctx.keeps_some user same)

theorem updateColumn_acts {stmt : Option Int → Stmt} :
    (updateColumn c.user stmt).Acts (Act.Plain c) :=
  attempt_acts fun u hu => bankGetUser_acts <| thenCatch_acts
    (fun rows => by
      split
      · exact start_acts done_acts
      · exact sendSame_acts hu ⟨rfl, rfl, rfl⟩)
    (sendSame_acts hu ⟨rfl, rfl, rfl⟩)

theorem gatherTasks_acts (total : Nat) (queries : List (JsVal × JsVal)) :
    (gatherTasks c.user total queries).Acts (Act.Plain c) := by
  induction queries with
  | nil => trivial
  | cons a rest ih =>
    refine ⟨thenRun_acts fun rows => ⟨trivial, fun complete => ?_⟩, ih⟩
    cases complete with
    | false => trivial
    | true => exact ⟨c.keeps_user, fun ok => by cases ok <;> trivial⟩

theorem tasks_acts : (tasks c.req c.user).Acts (Act.Plain c) := by
  refine attempt_acts fun _ _ => ?_
  split
  · split
    · exact sendUser_acts
    · exact gatherTasks_acts _ _
    · exact startEach_acts done_acts _
  · trivial

theorem addTask_acts : (addTask c.req c.user).Acts (Act.Plain c) := by
  refine query_acts <| thenCatch_acts (fun _ => ?_) sendUser_acts
  refine Acts.andThen (attempt_acts fun owners _ => startEach_acts done_acts _)
    (attempt_acts fun chore _ => ?_)
  split
  · exact ⟨thenCatch_acts (fun _ => sendUser_acts) trivial, sendUser_acts⟩
  · exact attempt_acts fun amount _ => start_acts sendUser_acts

/-- Outside the strategies the session keeps its identity. -/
theorem route_acts (P : Platform) (c : Ctx) (plain : c.req.route.identifies = false) :
    (route P c).Acts (Act.Plain c) := by
  unfold OneRoof.route
  cases hr : c.req.route with
  | upload =>
    refine attempt_acts fun u hu => attempt_acts fun filename _ => ?_
    dsimp only
    split
    · exact start_acts (sendSame_acts hu ⟨rfl, rfl, rfl⟩)
    · exact sendSame_acts hu ⟨rfl, rfl, rfl⟩
  | signout => exact send_acts c.keeps_none
  | uploads => exact attempt_acts fun _ _ => sendUser_acts
  | settings =>
    refine attempt_acts fun u hu => query_acts <| thenRun_acts fun rows => ?_
    split
    · exact query_acts <| thenRun_acts fun rs => attempt_acts fun h _ =>
        sendSame_acts hu ⟨rfl, rfl, rfl⟩
    · exact sendSame_acts hu ⟨rfl, rfl, rfl⟩
  | feed => exact sendUser_acts
  | house =>
    refine attempt_acts fun u hu => query_acts <| thenRun_acts fun rows => ?_
    split <;> exact sendSame_acts hu ⟨rfl, rfl, rfl⟩
  | houseDetails | getGroups =>
    exact attempt_acts fun u hu => query_acts <| thenRun_acts fun _ =>
      sendSame_acts hu ⟨rfl, rfl, rfl⟩
  | profile =>
    exact attempt_acts fun u hu => bankGetUser_acts <| thenRun_acts fun _ =>
      sendSame_acts hu ⟨rfl, rfl, rfl⟩
  | loadProfile => exact attempt_acts fun u hu => sendSame_acts hu ⟨rfl, rfl, rfl⟩
  | getUsers =>
    refine attempt_acts fun u hu => ?_
    split
    · exact query_acts <| thenRun_acts fun _ => sendSame_acts hu ⟨rfl, rfl, rfl⟩
    · trivial
  | joinGroup => exact attempt_acts fun u hu => start_acts done_acts
  | facebook => exact sendUser_acts
  | updateDispl =>
    refine attempt_acts fun u hu => bankGetUser_acts <| thenCatch_acts
      (fun rows => ?_) (sendSame_acts hu ⟨rfl, rfl, rfl⟩)
    split
    · exact start_acts (sendSame_acts hu ⟨rfl, rfl, rfl⟩)
    · exact sendSame_acts hu ⟨rfl, rfl, rfl⟩
  | createHouse =>
    exact query_acts <| thenCatch_acts (fun rows => attempt_acts fun u hu =>
      start_acts sendUser_acts) sendUser_acts
  | createGroup =>
    exact query_acts <| thenRun_acts fun rows => attempt_acts fun members _ =>
      startEach_acts done_acts _
  | joinHouse =>
    refine query_acts <| thenCatch_acts (fun rows => ?_) done_acts
    split
    · exact attempt_acts fun u hu => start_acts done_acts
    · exact sendUser_acts
  | viewUserGroups =>
    exact attempt_acts fun u hu => bankGetUser_acts <| thenRun_acts fun _ =>
      attempt_acts fun row _ => query_acts <| thenRun_acts fun _ =>
        sendSame_acts hu ⟨rfl, rfl, rfl⟩
  | getUserGroups =>
    exact attempt_acts fun u hu => bankGetUser_acts <| thenRun_acts fun _ =>
      query_acts <| thenRun_acts fun _ => sendSame_acts hu ⟨rfl, rfl, rfl⟩
  | updatePaymentMethod | updatePaymentUser | updateMobile => exact updateColumn_acts
  | tasks => exact tasks_acts
  | viewTasks =>
    exact attempt_acts fun u hu => attempt_acts fun _ _ => attempt_acts fun _ _ =>
      query_acts <| thenCatch_acts (fun _ => sendSame_acts hu ⟨rfl, rfl, rfl⟩)
        (sendSame_acts hu ⟨rfl, rfl, rfl⟩)
  | leaveHouse =>
    exact attempt_acts fun u hu => query_acts <| thenRun_acts fun _ =>
      sendSame_acts hu ⟨rfl, rfl, rfl⟩
  | accounts | delete | updateAccountName | transactions | uploadProfile => trivial
  | addTask => exact addTask_acts
  | getComment =>
    dsimp only [getComment]
    split
    · exact query_acts <| thenRun_acts fun _ => sendUser_acts
    · trivial
  | addComment =>
    exact attempt_acts fun _ _ => attempt_acts fun u hu => query_acts <| thenRun_acts fun _ =>
      sendUser_acts
  | deleteComment => exact query_acts <| thenRun_acts fun _ => sendUser_acts
  | deleteTask => exact attempt_acts fun _ _ => query_acts <| thenRun_acts fun _ => sendUser_acts
  | updateTask => exact start_acts done_acts
  | login | signup | facebookCallback grant | updatePass => simp [hr, Route.identifies] at plain

end Routes

end OneRoof
