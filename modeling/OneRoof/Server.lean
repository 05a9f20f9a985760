import OneRoof.Passport

/-!
# The server

Requests arrive at any time and load the user of their session; the statements
they have in flight settle in any order, because `connPool` is the pool that
`passport.js` passes to `Model` last. The log keeps what was completed, what
failed, what was answered and which hashes were compared, each with the request
it belongs to.
-/

namespace OneRoof

open Sql Async

/-- A request being served: its number, and the session user it loaded. -/
structure Ctx where
  rid : Nat
  req : Request
  user : Option SessionUser

inductive Event where
  | completed (c : Ctx) (s : Stmt) (r : s.Reply)
  | failed (c : Ctx) (s : Stmt)
  | answered (c : Ctx) (answer : Answer) (user : Option SessionUser)
  | compared (c : Ctx) (hash : Value)

/-- The response of a request has ended. -/
def Event.answers (rid : Nat) : Event → Bool
  | .answered c _ _ => c.rid = rid
  | _ => false

structure World (P : Platform) where
  db : Database P.collate
  store : Nat → Option SessionUser
  log : List Event
  gathered : Nat → List JsVal
  nextReq : Nat

section Serve

variable (P : Platform)

def route (c : Ctx) : Prog :=
  match c.req.route with
  | .upload => upload c.req c.user
  | .signout => signout
  | .uploads => uploads c.req c.user
  | .settings => settings c.user
  | .feed => feed c.user
  | .house => house c.user
  | .houseDetails => houseDetails c.user
  | .profile => profile c.user
  | .loadProfile => loadProfile c.req c.user
  | .getUsers => getUsers c.user
  | .joinGroup => joinGroup c.req c.user
  | .login => login P c.req c.user
  | .facebook => facebook c.user
  | .facebookCallback grant => facebookCallback c.user grant
  | .updateDispl => updateDispl c.req c.user
  | .createHouse => createHouse c.req c.user
  | .createGroup => createGroup c.req
  | .joinHouse => joinHouse c.req c.user
  | .getGroups => getGroups c.user
  | .viewUserGroups => viewUserGroups c.user
  | .getUserGroups => getUserGroups c.user
  | .updatePass => updatePass P c.req c.user
  | .updatePaymentMethod => updatePaymentMethod c.req c.user
  | .updatePaymentUser => updatePaymentUser c.req c.user
  | .updateMobile => updateMobile c.req c.user
  | .signup => signup P c.req c.user
  | .tasks => tasks c.req c.user
  | .viewTasks => viewTasks c.user
  | .accounts => leftOver
  | .leaveHouse => leaveHouse c.user
  | .delete => leftOver
  | .updateAccountName => leftOver
  | .transactions => leftOver
  | .addTask => addTask c.req c.user
  | .getComment => getComment c.req c.user
  | .addComment => addComment c.req c.user
  | .deleteComment => deleteComment c.req c.user
  | .deleteTask => deleteTask c.req c.user
  | .updateTask => updateTask c.req
  | .uploadProfile => uploadProfile

/-- What a handler throws before it returns is answered by Express. -/
def handler (c : Ctx) : Prog :=
  (route P c).recover (Prog.send (.status 500 "Internal Server Error") c.user)

variable {P}

/-- End the response unless it has ended; the session is saved with it. -/
def World.answer (w : World P) (c : Ctx) (answer : Answer) (user : Option SessionUser) :
    Bool × World P :=
  if w.log.any (Event.answers c.rid) then (false, w)
  else (true, { w with
    log := w.log ++ [.answered c answer user],
    store := Function.update w.store c.req.sid user })

def World.perform (c : Ctx) : Act → World P → Bool × World P
  | .send answer user, w => w.answer c answer user
  | .compareSync hash, w => (true, { w with log := w.log ++ [.compared c hash] })
  | .push entry total, w =>
    (decide ((w.gathered c.rid).length + 1 = total),
      { w with gathered := Function.update w.gathered c.rid (w.gathered c.rid ++ [entry]) })
  | .sendGathered user, w => w.answer c (.json (.arr (w.gathered c.rid))) user

variable (P)

def server : Machine Stmt Stmt.Reply Act Ctx (World P) Request (Database P.collate) where
  exec c s w := (OneRoof.exec P.collate s w.db).map fun (r, db) =>
    (r, { w with db := db, log := w.log ++ [.completed c s r] })
  refuse c s w := { w with log := w.log ++ [.failed c s] }
  perform := World.perform
  arrive q w :=
    (⟨w.nextReq, q, w.store q.sid⟩, handler P ⟨w.nextReq, q, w.store q.sid⟩,
      { w with nextReq := w.nextReq + 1 })
  disturb db w := { w with db := db }

/-- No request yet, over given tables and sessions. -/
def World.fresh (db : Database P.collate) (store : Nat → Option SessionUser) : World P :=
  ⟨db, store, [], fun _ => [], 0⟩

abbrev Config := Async.Config Stmt Stmt.Reply Act Ctx (World P)

abbrev Label := Async.Label Request (Database P.collate)

/-- Empty tables, no sessions, nothing in flight. -/
def startUp : Config P := ⟨World.fresh P (emptyDatabase P.collate) (fun _ => none), []⟩

/-- A step the server takes itself: nobody else touches the tables. -/
def Label.own : Async.Label Request (Database P.collate) → Prop
  | .disturb _ => False
  | _ => True

instance : DecidablePred (Label.own P) := fun l => match l with
  | .arrive _ => isTrue trivial
  | .settle _ _ => isTrue trivial
  | .disturb _ => isFalse id

/-- The states some run from start-up reaches. -/
def Reachable (σ : Config P) : Prop :=
  ∃ ls : List (Label P), (∀ l ∈ ls, Label.own P l) ∧ σ = run (server P) ls (startUp P)

end Serve

/-- A platform for closed runs: texts are compared without regard to case, and a
hash keeps its salt in front of the password. -/
def samplePlatform : Platform where
  collate s := String.ofList (s.toList.map Char.toLower)
  collate_ab := by decide
  hashSync password salt := salt ++ password
  compareSync password hash := some (password.toList.isSuffixOf hash.toList)

/-- The first user, logged in by the email "a". -/
def sampleSession : SessionUser where
  user_id := some 1
  email := .str "a"
  displayName := .str "a"

end OneRoof
