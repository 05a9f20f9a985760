import OneRoof.Routes

/-!
# The strategies of `controllers/passport.js`

A strategy ends in `done(null, user)`, which logs the user in and runs the rest
of the route, or in `done(null, false)`, which ends the response. The local
strategies take their credentials from the body or, failing that, from the
query, and refuse a request that lacks one of them.
-/

namespace OneRoof

open Sql Async.Prog Prog

section Strategies

variable (P : Platform) (req : Request) (user : Option SessionUser)

/-- `lookup(req.body, field) || lookup(req.query, field)`. -/
def credential (field : String) : JsVal :=
  if (req.body.get field).truthy then req.body.get field else req.query.get field

/-- `done(null, false)` without a redirect. -/
def unauthorized : Prog := send (.status 401 "Unauthorized") user

def withCredentials (verify : (username password : JsVal) → Prog) : Prog :=
  if (credential req "email").truthy ∧ (credential req "password").truthy then
    verify (credential req "email") (credential req "password")
  else send (.status 400 "Bad Request") user

/-- `createHash` of `passport.js`, which throws unless it is given a string. -/
def createHash : JsVal → Option String
  | .str password => some (P.hashSync password req.salt)
  | _ => none

/-- A property that is copied only when the body has it. -/
def optional (key field : String) : JsVal :=
  if req.body.hasOwn key then req.body.get field else .undefined

/-- The object `local-signup` passes to `createUser` and then to `done`. -/
def signupUser (username : JsVal) (hashPass : String) : SessionUser where
  user_id := none
  email := username
  displayName := req.body.get "displayName"
  hashPass := .str hashPass
  paymentMethod := optional req "paymentMethod" "paymentMethod"
  paymentUsername := optional req "paymentMethod" "paymentUsername"
  mobile := optional req "mobile" "mobile"

def newLocalUser (u : SessionUser) : NewUser :=
  .localUser u.email u.displayName u.hashPass u.paymentMethod u.paymentUsername u.mobile

/-- The parameters are printed before the row is inserted. -/
def printable (u : SessionUser) : Option (List String) :=
  JsVal.joinStr [u.email, u.displayName, u.hashPass, u.paymentMethod, u.paymentUsername, u.mobile]

/-- The rest of POST /api/signup: the new user's id is looked up by email. -/
def signedUp (newUser : SessionUser) : Prog :=
  bankGetUser newUser.email <| thenRun fun rows => attempt rows.head? fun row =>
    let u := { newUser with user_id := cellInt (row .user_id) }
    send (.json u.js) (some u)

/-- What runs when the email is not taken. An object that carries its own
`hasOwnProperty` makes the look at its properties throw. -/
def createLocal (username password : JsVal) : Prog :=
  attempt (createHash P req password) fun hashPass =>
  attempt (req.body.get "displayName").toStr fun _ =>
    if req.body.hasOwn "hasOwnProperty" then throw
    else
      let newUser := signupUser req username hashPass
      attempt (printable newUser) fun _ =>
        query (.createUser (newLocalUser newUser)) <|
          thenCatch (fun _ => signedUp newUser) (unauthorized user)

def localSignup (username password : JsVal) : Prog :=
  attempt ((req.body.get "confirmPass").looseEq (req.body.get "password")) fun same =>
    if same then
      bankGetUser username <| thenRun fun rows =>
        if rows.length = 0 then createLocal P req user username password
        else unauthorized user
    else unauthorized user

def signup : Prog := withCredentials req user (localSignup P req user)

/-- The password is hashed once more for the log before it is compared. -/
def localLogin (username password : JsVal) : Prog :=
  bankGetUser username <| thenRun fun rows => match rows.head? with
    | none => unauthorized user
    | some row => attempt (createHash P req password) fun _ =>
        act (.compareSync (row .hash_pass)) fun _ =>
          attempt (isValidPassword P (row .hash_pass) password) fun valid =>
            if valid then send (.json .undefined) (some (SessionUser.ofRow row))
            else unauthorized user

def login : Prog := withCredentials req user (localLogin P req user)

def facebook : Prog := send (.redirect "facebook") user

/-- The object `facebook-login` builds, once its row has an id. -/
def facebookUser (profile : Profile) (token name email : String) (insertId : Nat) :
    SessionUser where
  user_id := some insertId
  email := .undefined
  displayName := .str name
  facebook_email := .str email
  facebook_token := .str token
  facebook_id := .str profile.id

def profileName (profile : Profile) : String :=
  profile.displayName.getD (profile.givenName ++ " " ++ profile.familyName)

def facebookLogin (profile : Profile) (token : String) : Prog :=
  bankGetUserFB (.str profile.id) <| thenRun fun rows => match rows.head? with
    | none => attempt profile.email fun email =>
        query (.createUser (.facebookUser (.str email) (.str (profileName profile))
          (.str token) (.str profile.id))) <| thenCatch
          (fun response => send (.redirect "/feed.html") (some
            (facebookUser profile token (profileName profile) email response.insertId)))
          (send (.redirect "/") user)
    | some row => send (.redirect "/feed.html") (some (SessionUser.ofRow row))

def facebookCallback : Option (Profile × String) → Prog
  | some (profile, token) => facebookLogin user profile token
  | none => send (.redirect "/") user

end Strategies

end OneRoof
