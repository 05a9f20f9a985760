import OneRoof.Lib.Async
import OneRoof.Maria
import OneRoof.Uploads

/-!
# Requests, sessions and answers

What a handler is given, what it keeps in the session and what it can do. The
session user is the very object passport stores: a row of `tblUSER` after a
login, the object `local-signup` builds, or the one `facebook-login` builds,
with the properties the handlers add to it. It is written to the session store
whole, when the response ends.
-/

namespace OneRoof

open Sql

/-- Third-party behaviour the handlers rely on. `collate` is the sort key of the
database's collation; `compareSync` throws on a text that is not a hash. -/
structure Platform where
  collate : String → String
  collate_ab : collate "a" ≠ collate "b"
  hashSync : (password salt : String) → String
  compareSync : (password hash : String) → Option Bool

def cellJs : Value → JsVal
  | .null => .null
  | .int n => .num n
  | .text s => .str s

def cellInt : Value → Option Int
  | .int n => some n
  | _ => none

def fieldsOf {κ : Type} [Columns κ] (r : Row κ) : List (String × JsVal) :=
  Columns.all.map (fun c => (Columns.name c, cellJs (r c)))

def rowJs {κ : Type} [Columns κ] (r : Row κ) : JsVal := .obj (fieldsOf r)

/-- A row of a join as the driver builds it: of two columns with one name the
later one stays. -/
def joined (first second : List (String × JsVal)) : List (String × JsVal) :=
  first.filter (fun f => second.all (fun g => g.1 ≠ f.1)) ++ second

def packetJs (p : Packet) : JsVal :=
  .obj [("affectedRows", .num p.affectedRows), ("insertId", .num p.insertId)]

structure SessionUser where
  user_id : Option Int
  email : JsVal
  displayName : JsVal
  facebook_id : JsVal := .undefined
  facebook_name : JsVal := .undefined
  facebook_email : JsVal := .undefined
  facebook_token : JsVal := .undefined
  payment_method : JsVal := .undefined
  payment_username : JsVal := .undefined
  hash_pass : JsVal := .undefined
  phone_num : JsVal := .undefined
  user_pic : JsVal := .undefined
  hashPass : JsVal := .undefined
  paymentMethod : JsVal := .undefined
  paymentUsername : JsVal := .undefined
  mobile : JsVal := .undefined
  houseID : Option Int := none
  requestedProfile : JsVal := .undefined

namespace SessionUser

/-- A row of `tblUSER` becomes the session user. -/
def ofRow (r : Row UserCol) : SessionUser where
  user_id := cellInt (r .user_id)
  email := cellJs (r .email)
  displayName := cellJs (r .displayName)
  facebook_id := cellJs (r .facebook_id)
  facebook_name := cellJs (r .facebook_name)
  facebook_email := cellJs (r .facebook_email)
  facebook_token := cellJs (r .facebook_token)
  payment_method := cellJs (r .payment_method)
  payment_username := cellJs (r .payment_username)
  hash_pass := cellJs (r .hash_pass)
  phone_num := cellJs (r .phone_num)
  user_pic := cellJs (r .user_pic)

/-- What `res.json(req.user)` sends: properties that are missing are left out. -/
def js (u : SessionUser) : JsVal :=
  .obj ([("user_id", JsVal.ofInt u.user_id), ("email", u.email),
    ("displayName", u.displayName), ("facebook_id", u.facebook_id),
    ("facebook_name", u.facebook_name), ("facebook_email", u.facebook_email),
    ("facebook_token", u.facebook_token), ("payment_method", u.payment_method),
    ("payment_username", u.payment_username), ("hash_pass", u.hash_pass),
    ("phone_num", u.phone_num), ("user_pic", u.user_pic), ("hashPass", u.hashPass),
    ("paymentMethod", u.paymentMethod), ("paymentUsername", u.paymentUsername),
    ("mobile", u.mobile), ("houseID", JsVal.ofInt u.houseID),
    ("requestedProfile", u.requestedProfile)].filter (fun f => !(f.2 matches .undefined)))

end SessionUser

/-- The profile Facebook answers with; its ids are short numerals. -/
structure Profile where
  id : String
  displayName : Option String
  givenName : String
  familyName : String
  email : Option String
  id_fits : id.length ≤ 64

inductive Route where
  | upload | signout | uploads | settings | feed | house | houseDetails | profile
  | loadProfile | getUsers | joinGroup | login | facebook
  | facebookCallback (grant : Option (Profile × String))
  | updateDispl | createHouse | createGroup | joinHouse | getGroups | viewUserGroups
  | getUserGroups | updatePass | updatePaymentMethod | updatePaymentUser | updateMobile
  | signup | tasks | viewTasks | accounts | leaveHouse | delete | updateAccountName
  | transactions | addTask | getComment | addComment | deleteComment | deleteTask
  | updateTask | uploadProfile

def oneFile : Paths.FileSystem := Paths.only ["x"] (by decide)

def zeroDraws : Nat → Fin 65536 := fun _ => ⟨0, by decide⟩

/-- A request with all that the handlers take from outside while they run it:
random draws, clocks, the salt and the files on disk. -/
structure Request where
  sid : Nat
  route : Route
  body : JsVal := .obj []
  query : JsVal := .obj []
  url : List Char := []
  files : Paths.FileSystem := oneFile
  cwd : List String := []
  file : Option String := none
  renamed : Bool := true
  draws : Nat → Fin 65536 := zeroDraws
  clock : String := ""
  stamp : Int := 19700101000001
  salt : String := ""

inductive Answer where
  | json (v : JsVal)
  | status (code : Nat) (text : String)
  | redirect (path : String)
  | content (text : String)

/-- Neither an error status nor a redirect to the start page. -/
def Answer.success : Answer → Bool
  | .json _ => true
  | .status _ _ => false
  | .redirect path => path ≠ "/"
  | .content _ => true

/-- What a callback does besides issuing statements. `send` ends the response
and saves the session user with it; a second one throws. `compareSync` records a
comparison with a stored hash. `push` adds to the array a request gathers and
reports whether it now has that many entries. -/
inductive Act where
  | send (answer : Answer) (user : Option SessionUser)
  | compareSync (hash : Value)
  | push (entry : JsVal) (total : Nat)
  | sendGathered (user : Option SessionUser)

abbrev Prog := Async.Prog Stmt Stmt.Reply Act

namespace Prog

open Async.Prog

/-- End the response; afterwards the callback returns. -/
def send (answer : Answer) (user : Option SessionUser) : Prog :=
  act (.send answer user) (fun ok => if ok then done else throw)

/-- Issue a statement and hand its outcome to `k`, with nothing after it. -/
def query (s : Stmt) (k : Option s.Reply → Prog) : Prog := issue s k done

/-- Issue a statement nobody waits for. -/
def start (s : Stmt) (rest : Prog) : Prog := issue s (fun _ => done) rest

/-- `p.then(f)` without a `catch`: a rejection is not handled. -/
def thenRun {α : Type} (f : α → Prog) : Option α → Prog
  | some r => f r
  | none => throw

/-- `p.then(f).catch(h)`: `h` also covers what `f` throws. -/
def thenCatch {α : Type} (f : α → Prog) (h : Prog) : Option α → Prog
  | some r => (f r).recover h
  | none => h

/-- A value whose computation may throw. -/
def attempt {α : Type} (v : Option α) (f : α → Prog) : Prog :=
  match v with
  | some a => f a
  | none => throw

/-- A loop that starts one statement for each element, then `rest`. -/
def startEach (f : JsVal → Option Stmt) (broken : Bool) (rest : Prog) : List JsVal → Prog
  | [] => if broken then throw else rest
  | v :: vs => attempt (f v) (fun s => start s (startEach f broken rest vs))

end Prog

/-- `req.user` where a property of it is read. -/
def withUser (user : Option SessionUser) (f : SessionUser → Prog) : Prog := Prog.attempt user f

/-- `bankData.getUser`: the logged copy of the query is a second one. -/
def bankGetUser (email : JsVal) (k : Option (List (Row UserCol)) → Prog) : Prog :=
  Prog.start (.getUser email) (Prog.query (.getUser email) k)

def bankGetUserFB (profileId : JsVal) (k : Option (List (Row UserCol)) → Prog) : Prog :=
  Prog.start (.getUserFB profileId) (Prog.query (.getUserFB profileId) k)

/-- Four hexadecimal digits of `0x10000 + draw`. -/
def s4 (draw : Fin 65536) : String :=
  String.ofList ((Nat.toDigits 16 (65536 + draw)).drop 1)

def houseCode (draws : Nat → Fin 65536) : String := s4 (draws 0) ++ s4 (draws 1)

def guid (draws : Nat → Fin 65536) : String :=
  s4 (draws 0) ++ s4 (draws 1) ++ "-" ++ s4 (draws 2) ++ "-" ++ s4 (draws 3) ++ "-" ++
    s4 (draws 4) ++ "-" ++ s4 (draws 5) ++ s4 (draws 6) ++ s4 (draws 7)

end OneRoof
