import OneRoof.Credentials
import OneRoof.Profiles

/-!
# Which password opens an account

What the tables know of the accounts is a directory: each account with its number, the email
it is found by and the password that was last set for it, at its sign-up or by a completed
change. A login is let in by the first account with its email, and by no password but one
that fits the hash of the last one. That holds however the requests interleave, and a login
that is served by itself is let in exactly then.
-/

namespace OneRoof

open Sql Async Async.Prog Prog

variable {P : Platform}

/-- A password and the salt it was hashed with. -/
structure Secret where
  password : String
  salt : String

/-- An account: its number, the email as it is stored, and the password that was last set. -/
structure Entry where
  number : Int
  email : Value
  secret : Option Secret

/-- The password that a sign-up or a change of the password sets. -/
def Ctx.secret (c : Ctx) : Option Secret :=
  match c.req.route with
  | .signup => match credential c.req "password" with
    | .str password => some ⟨password, c.req.salt⟩
    | _ => none
  | .updatePass => (c.req.body.get "newPass").toStr.map fun password => ⟨password, c.req.salt⟩
  | _ => none

/-- What a completed statement makes of the directory. -/
def registering (c : Ctx) : (s : Stmt) → s.Reply → List Entry → List Entry
  | .createUser (.localUser email _ _ _ _ _), packet, dir =>
    dir ++ [⟨packet.insertId, store UserCol.email email.lit.value, c.secret⟩]
  | .createUser (.facebookUser _ _ _ _), packet, dir => dir ++ [⟨packet.insertId, .null, none⟩]
  | .updateUserPass _ (some n), _, dir =>
    dir.map fun a => if a.number = n then { a with secret := c.secret } else a
  | _, _, dir => dir

/-- The directory that the statements of a log leave. -/
abbrev directory (log : List Event) : List Entry := replay registering [] log

/-- The cell that holds the hash of a password. -/
def Secret.cell (P : Platform) : Option Secret → Value
  | some secret => store UserCol.hash_pass (.text (P.hashSync secret.password secret.salt))
  | none => .null

/-- What a login sees of a row. -/
def loginCells (r : Row UserCol) : Value × Value × Value := (r .user_id, r .email, r .hash_pass)

def Entry.cells (P : Platform) (a : Entry) : Value × Value × Value :=
  (.int a.number, a.email, Secret.cell P a.secret)

/-- The table shows the directory. -/
def ShowsDirectory (db : Database P.collate) (dir : List Entry) : Prop :=
  db.tables.user.map loginCells = dir.map (Entry.cells P)

/-- The hash of a sign-up is the one of its password. -/
def HashesPassword (P : Platform) (c : Ctx) (s : Stmt) : Prop :=
  ∀ email displayName hashPass paymentMethod paymentUsername mobile,
    s = .createUser (.localUser email displayName hashPass paymentMethod paymentUsername mobile) →
    ∃ password, c.secret = some ⟨password, c.req.salt⟩ ∧
      hashPass = .str (P.hashSync password c.req.salt)

/-- What the handler of a plain request may send. -/
structure KeepsAccounts (P : Platform) (c : Ctx) (s : Stmt) : Prop where
  plain : c.req.Plain
  sends : Sends P c s
  hashes : HashesPassword P c s

section Issues

variable {c : Ctx} {s : Stmt}

theorem Sends.hashes (sends : Sends P c s) (other : c.req.route ≠ .signup) :
    HashesPassword P c s := by
  intro email displayName hashPass paymentMethod paymentUsername mobile same
  cases sends with
  | select reads =>
    rw [same] at reads
    cases reads
  | createLocal route => exact absurd route other
  | _ => cases same

theorem hashes_of_select (reads : s.isSelect = true) : HashesPassword P c s := by
  rintro _ _ _ _ _ _ rfl
  cases reads

theorem signup_hashes (route : c.req.route = .signup) :
    (signup P c.req c.user).Issues (HashesPassword P c) := by
  unfold signup withCredentials
  split
  · refine attempt_issues fun same _ => ?_
    split
    · refine bankGetUser_issues (hashes_of_select rfl) <| thenRun_issues fun rows => ?_
      split
      · refine attempt_issues fun hashPass hashed => attempt_issues fun _ _ => ?_
        split
        · trivial
        · refine attempt_issues fun _ _ => query_issues ?_ <|
            thenCatch_issues (fun _ => ?_) (unauthorized_issues _)
          · rintro _ _ _ _ _ _ same
            cases same
            cases given : credential c.req "password" with
            | str password =>
              rw [given, createHash, Option.some.injEq] at hashed
              subst hashed
              exact ⟨password, by simp only [Ctx.secret, route, given], rfl⟩
            | _ => simp [createHash, given] at hashed
          · exact bankGetUser_issues (hashes_of_select rfl) <| thenRun_issues fun rows =>
              attempt_issues fun row _ => send_issues _ _
      · exact unauthorized_issues _
    · exact unauthorized_issues _
  · exact send_issues _ _

theorem handler_hashes (P : Platform) (c : Ctx) :
    (handler P c).Issues (HashesPassword P c) := by
  by_cases route : c.req.route = .signup
  · refine Issues.recover ?_ (send_issues _ _)
    rw [OneRoof.route, route]
    exact signup_hashes route
  · exact (handler_issues P c).mono fun s sends => sends.hashes route

theorem issues_and {φ ψ : Stmt → Prop} {prog : Prog} (first : prog.Issues φ)
    (second : prog.Issues ψ) : prog.Issues fun s => φ s ∧ ψ s := by
  induction prog with
  | done => trivial
  | throw => trivial
  | issue s k rest ihk ih =>
    exact ⟨⟨first.1, second.1⟩, fun r => ihk r (first.2.1 r) (second.2.1 r),
      ih first.2.2 second.2.2⟩
  | act a k ih => exact fun b => ih b (first b) (second b)

theorem handler_enrols (c : Ctx) (plain : c.req.Plain) : (handler P c).Issues (KeepsAccounts P c) :=
  (issues_and (handler_issues P c) (handler_hashes P c)).mono
    fun _ both => ⟨plain, both.1, both.2⟩

end Issues

section Rows

variable {collate : String → String} {c : Ctx} {s : Stmt} {dir : List Entry}

/-- Only sign-ups and changes of a password change the directory. -/
theorem enrolling_same (r : s.Reply) (known : ∀ user, s ≠ .createUser user)
    (kept : ∀ pass id, s ≠ .updateUserPass pass id) : registering c s r dir = dir := by
  cases s with
  | createUser user => exact absurd rfl (known user)
  | updateUserPass pass id => exact absurd rfl (kept pass id)
  | _ => rfl

/-- A column that a login does not look at. -/
theorem loginCells_written {col : UserCol} (profile : col.isProfile = true)
    (other : col ≠ .hash_pass) (v : Value) (id : Option Int) (row : Row UserCol) :
    loginCells (written collate col v id row) = loginCells row := by
  have kept : ∀ d, d = .user_id ∨ d = .email ∨ d = .hash_pass →
      written collate col v id row d = row d := by
    intro d looked
    refine written_other ?_ v id row
    rintro rfl
    rcases looked with rfl | rfl | rfl
    · cases profile
    · cases profile
    · exact other rfl
  rw [loginCells, kept _ (Or.inl rfl), kept _ (Or.inr (Or.inl rfl)),
    kept _ (Or.inr (Or.inr rfl)), loginCells]

/-- A new hash for the account with the number, and for no other. -/
theorem loginCells_rehashed (pass : String) (n : Int) (row : Row UserCol) {a : Entry}
    (shown : loginCells row = a.cells P) {secret : Secret}
    (hashed : pass = P.hashSync secret.password secret.salt) :
    loginCells (written P.collate .hash_pass (.text pass) (some n) row) =
      Entry.cells P (if a.number = n then { a with secret := some secret } else a) := by
  obtain ⟨number, email, hash⟩ : row .user_id = .int a.number ∧ row .email = a.email ∧
      row .hash_pass = Secret.cell P a.secret := by
    simpa [loginCells, Entry.cells] using shown
  by_cases same : a.number = n
  · simp [written, loginCells, Entry.cells, number, email, same, idLit, eqLit, hashed,
      Secret.cell]
  · simp [written, loginCells, Entry.cells, number, email, same, idLit, eqLit, hash]

/-- A new row is entered with its number, its email and the password it was made with. -/
theorem createUser_enrolling {user : NewUser} {packet : Packet} {row : Row UserCol}
    (enrols : KeepsAccounts P c (.createUser user))
    (filled : insertUser P.collate user packet.insertId = some row) :
    ∃ a, registering c (.createUser user) packet dir = dir ++ [a] ∧
      loginCells row = a.cells P := by
  obtain ⟨plain, sends, hashes⟩ := enrols
  cases user with
  | localUser email displayName hashPass paymentMethod paymentUsername mobile =>
    refine ⟨_, rfl, ?_⟩
    obtain ⟨password, secret, rfl⟩ := hashes _ _ _ _ _ _ rfl
    have scalar : email.isScalar = true := by
      generalize created : Stmt.createUser _ = s at sends
      cases sends with
      | select reads => subst created; cases reads
      | createLocal route given =>
        cases created
        exact credential_scalar plain "email" (by decide)
      | _ => cases created
    rw [insertUser] at filled
    have number : row .user_id = .int packet.insertId := newRow_key filled (by simp)
    have stored : row .email = store UserCol.email email.lit.value :=
      newRow_cell filled (by simp) (by simp) scalar
    have hashed : row .hash_pass =
        store UserCol.hash_pass (.text (P.hashSync password c.req.salt)) :=
      newRow_cell filled (v := .str _) (by simp) (by simp) rfl
    simp [loginCells, Entry.cells, Secret.cell, number, stored, hashed, secret]
  | facebookUser facebook_email displayName facebook_token facebook_id =>
    refine ⟨_, rfl, ?_⟩
    generalize created : Stmt.createUser _ = s at sends
    cases sends with
    | select reads => subst created; cases reads
    | createFacebook route =>
      cases created
      obtain ⟨account, kind⟩ := insertUser_facebook (Profile.id_fits _) filled
      have number : row .user_id = .int packet.insertId := congrArg Account.user_id account
      simp [loginCells, Entry.cells, Secret.cell, number, kind.email, kind.hash_pass]
    | _ => cases created

end Rows

/-- A statement that is neither a sign-up nor a change of a password leaves what a login
looks at. -/
theorem loginCells_same {c : Ctx} {s : Stmt} {r : s.Reply} {db db' : Database P.collate}
    (enrols : KeepsAccounts P c s) (he : exec P.collate s db = some (r, db'))
    (known : ∀ user, s ≠ .createUser user) (kept : ∀ pass id, s ≠ .updateUserPass pass id) :
    db'.tables.user.map loginCells = db.tables.user.map loginCells := by
  have effect := exec_effect he
  generalize db'.tables = t at effect ⊢
  generalize db'.next = n at effect
  cases effect with
  | @setUser _ col v id sets writes parsed =>
    obtain ⟨scalar, profile, -, password⟩ := enrols.sends.updates enrols.plain writes
    have other : col ≠ .hash_pass := fun same => by
      obtain ⟨-, pass, set⟩ := password same
      exact kept pass id set
    rw [setTo_scalar _ scalar] at parsed
    cases parsed
    rw [update_written, List.map_map]
    exact List.map_congr_left fun row _ => loginCells_written profile other _ _ row
  | createUser filled => exact absurd rfl (known _)
  | _ => rfl

/-- A change of a password changes it for the account of the session. -/
theorem rehashed_shown {c : Ctx} {pass : String} {id : Option Int} {r : Packet}
    {db db' : Database P.collate} {dir : List Entry}
    (sends : Sends P c (.updateUserPass pass id))
    (he : exec P.collate (.updateUserPass pass id) db = some (r, db'))
    (shown : ShowsDirectory db dir) :
    ShowsDirectory db' (registering c (.updateUserPass pass id) r dir) := by
  obtain ⟨sets, parsed, tables, -⟩ := setUser_tables he
  rw [setTo_scalar _ rfl] at parsed
  cases parsed
  obtain ⟨secret, known, hashed⟩ : ∃ secret, c.secret = some secret ∧
      pass = P.hashSync secret.password secret.salt := by
    generalize changed : Stmt.updateUserPass pass id = s at sends
    cases sends with
    | select reads => subst changed; cases reads
    | updateUserPass route user printed =>
      cases changed
      exact ⟨⟨_, c.req.salt⟩, by simp only [Ctx.secret, route, printed, Option.map_some], rfl⟩
    | _ => cases changed
  rw [ShowsDirectory, tables, update_written, List.map_map]
  cases id with
  | none =>
    refine Eq.trans (List.map_congr_left fun row _ => ?_) shown
    simp [written, idLit, eqLit_null]
  | some n =>
    have followed : ∀ row (a : Entry), loginCells row = a.cells P →
        loginCells (written P.collate .hash_pass (.text pass) (some n) row) =
          (if a.number = n then { a with secret := c.secret } else a).cells P := by
      intro row a same
      rw [known]
      exact loginCells_rehashed pass n row same hashed
    rw [ShowsDirectory, ← List.forall₂_eq_eq_eq, List.forall₂_map_left_iff,
      List.forall₂_map_right_iff] at shown
    change _ = (dir.map fun a => if a.number = n then { a with secret := c.secret } else a).map _
    rw [← List.forall₂_eq_eq_eq, List.forall₂_map_left_iff, List.forall₂_map_right_iff,
      List.forall₂_map_right_iff]
    exact shown.imp followed

theorem directory_refines :
    Refines P Request.Plain (KeepsAccounts P) registering [] ShowsDirectory where
  start := rfl
  issues := handler_enrols
  preserve := by
    intro c s r db db' dir enrols he shown
    by_cases creates : ∃ user, s = .createUser user
    · obtain ⟨user, rfl⟩ := creates
      obtain ⟨row, filled, tables, number⟩ := exec_createUser he
      rw [← number] at filled
      obtain ⟨a, entered, cells⟩ := createUser_enrolling enrols filled
      rw [ShowsDirectory, tables, entered, List.map_append, List.map_append, shown]
      exact congrArg _ (congrArg (fun x => [x]) cells)
    by_cases changes : ∃ pass id, s = .updateUserPass pass id
    · obtain ⟨pass, id, rfl⟩ := changes
      exact rehashed_shown enrols.sends he shown
    · have known : ∀ user, s ≠ .createUser user := fun user same => creates ⟨user, same⟩
      have kept : ∀ pass id, s ≠ .updateUserPass pass id :=
        fun pass id same => changes ⟨pass, id, same⟩
      rw [ShowsDirectory, loginCells_same enrols he known kept, enrolling_same r known kept]
      exact shown

/-- The account is found by this email. -/
def Entry.named (collate : String → String) (email : JsVal) (a : Entry) : Bool :=
  eqLit collate a.email email.lit = some true

/-- The first account with the email has a password, and its hash is fitted. -/
def Opens (P : Platform) (dir : List Entry) (email : JsVal) (password : String) : Prop :=
  ∃ a secret, dir.find? (Entry.named P.collate email) = some a ∧ a.secret = some secret ∧
    P.compareSync password (cut 64 (P.hashSync secret.password secret.salt)) = some true

section Lookup

variable {db db' : Database P.collate} {dir : List Entry} {email : JsVal}
variable {rows : List (Row UserCol)}

/-- A look-up by email finds the first account with the email. -/
theorem head_enrolled (shown : ShowsDirectory db dir) (scalar : email.isScalar = true)
    (he : exec P.collate (.getUser email) db = some (rows, db')) :
    rows.head?.map loginCells =
      (dir.find? (Entry.named P.collate email)).map (Entry.cells P) := by
  obtain ⟨-, -, rfl⟩ := selectUser_scalar scalar he
  have both := congrArg (List.find? fun x : Value × Value × Value =>
    decide (eqLit P.collate x.2.1 email.lit = some true)) shown
  rw [List.find?_map, List.find?_map] at both
  rw [List.head?_filter]
  exact both

/-- The hash in the row that is found is the one of the account's password. -/
theorem opens_iff (shown : ShowsDirectory db dir) (scalar : email.isScalar = true)
    (he : exec P.collate (.getUser email) db = some (rows, db')) (password : String) :
    Opens P dir email password ↔
      ∃ row, rows.head? = some row ∧
        isValidPassword P (row .hash_pass) (.str password) = some true := by
  have found := head_enrolled shown scalar he
  constructor
  · rintro ⟨a, secret, first, known, fits⟩
    rw [first, Option.map_some, Option.map_eq_some_iff] at found
    obtain ⟨row, head, cells⟩ := found
    have hashed : row .hash_pass = Secret.cell P a.secret := congrArg (·.2.2) cells
    refine ⟨row, head, ?_⟩
    rw [hashed, known]
    exact fits
  · rintro ⟨row, head, valid⟩
    rw [head, Option.map_some, eq_comm, Option.map_eq_some_iff] at found
    obtain ⟨a, first, cells⟩ := found
    have hashed : Secret.cell P a.secret = row .hash_pass := congrArg (·.2.2) cells
    rw [← hashed] at valid
    cases known : a.secret with
    | none => simp [known, Secret.cell, isValidPassword] at valid
    | some secret =>
      rw [known] at valid
      exact ⟨a, secret, first, known, valid⟩

end Lookup

/-- A login found an account by its email, and its password fitted the last one of this
account by then. -/
def KnewPassword (P : Platform) (log : List Event) (c : Ctx) : Prop :=
  ∃ front rest rows password,
    log = front ++ .completed c (.getUser (credential c.req "email")) rows :: rest ∧
    credential c.req "password" = .str password ∧
    Opens P (directory front) (credential c.req "email") password

theorem LetIn.knewPassword {ls : List (Label P)} (plain : ∀ l ∈ ls, PlainLabel P l) {c : Ctx}
    {u : SessionUser} (letIn : LetIn P (run (server P) ls (startUp P)).world.log c u)
    (route : c.req.route = .login) :
    KnewPassword P (run (server P) ls (startUp P)).world.log c := by
  have labels : ∀ l ∈ ls, Admissible P Request.Plain l :=
    fun l mem => (plain l mem).admissible
  cases letIn with
  | @login rows row password hash _ found head given stored fits =>
    obtain ⟨front, rest, logged⟩ := List.append_of_mem found
    obtain ⟨⟨asked, -, -⟩, db, db', shown, he⟩ := directory_refines.answered labels logged
    refine ⟨front, rest, rows, password, logged, given, ?_⟩
    refine (opens_iff shown (credential_scalar asked "email" (by decide)) he password).mpr
      ⟨row, head, ?_⟩
    rw [stored]
    exact fits
  | signup other => rw [route] at other; cases other
  | known other => rw [route] at other; cases other
  | joined other => rw [route] at other; cases other

section Served

variable {σ : Config P} {q : Request} {dir : List Entry}

/-- A login that carries credentials which open an account. -/
def LoginOpens (P : Platform) (dir : List Entry) (q : Request) : Prop :=
  (credential q "email").truthy = true ∧ (credential q "password").truthy = true ∧
    ∃ password, credential q "password" = .str password ∧
      Opens P dir (credential q "email") password

/-- What a login does once its account is looked up. -/
def loginFound (P : Platform) (c : Ctx) (password : JsVal) (rows : List (Row UserCol)) : Prog :=
  match rows.head? with
  | none => unauthorized c.user
  | some row => attempt (createHash P c.req password) fun _ =>
      act (.compareSync (row .hash_pass)) fun _ =>
        attempt (isValidPassword P (row .hash_pass) password) fun valid =>
          if valid then Prog.send (.json .undefined) (some (SessionUser.ofRow row))
          else unauthorized c.user

variable {w : World P} {c : Ctx} {rows : List (Row UserCol)} {password : JsVal}

theorem send_store (unanswered : w.log.any (Event.answers c.rid) = false) (answer : Answer)
    (user : Option SessionUser) :
    (enter (server P) c (Prog.send answer user) ⟨w, []⟩).world.store =
      Function.update w.store c.req.sid user := by
  rw [enter_send_open (σ := ⟨w, []⟩) c answer user unanswered]

theorem loginFound_valid (unanswered : w.log.any (Event.answers c.rid) = false)
    {row : Row UserCol} (head : rows.head? = some row)
    (valid : isValidPassword P (row .hash_pass) password = some true) :
    (enter (server P) c (loginFound P c password rows) ⟨w, []⟩).world.store =
      Function.update w.store c.req.sid (some (SessionUser.ofRow row)) := by
  cases given : password with
  | str text =>
    rw [given] at valid
    simp only [loginFound, head, createHash, attempt, valid, if_true]
    refine send_store (w := { w with log := w.log ++ [.compared c (row .hash_pass)] }) ?_ _ _
    simp [unanswered, Event.answers]
  | _ => simp [isValidPassword, given] at valid

/-- Without a fitting password the session stays as it was. -/
theorem loginFound_invalid (unanswered : w.log.any (Event.answers c.rid) = false)
    (session : w.store c.req.sid = c.user)
    (invalid : ∀ row, rows.head? = some row →
      isValidPassword P (row .hash_pass) password ≠ some true) :
    (enter (server P) c (loginFound P c password rows) ⟨w, []⟩).world.store = w.store := by
  have stays : Function.update w.store c.req.sid c.user = w.store := by
    rw [← session]
    exact Function.update_eq_self _ _
  cases head : rows.head? with
  | none =>
    simp only [loginFound, head]
    exact (send_store unanswered _ _).trans stays
  | some row =>
    simp only [loginFound, head]
    cases createHash P c.req password with
    | none => rfl
    | some hash =>
      cases outcome : isValidPassword P (row .hash_pass) password with
      | none => rfl
      | some valid =>
        cases valid with
        | true => exact absurd outcome (invalid row head)
        | false =>
          refine (send_store (w := { w with log := w.log ++ [.compared c (row .hash_pass)] })
            ?_ _ _).trans stays
          simp [unanswered, Event.answers]

/-- A login that is served by itself, with both copies of its look-up answered. -/
theorem serve_login {w : World P} (fresh : Fresh ⟨w, []⟩) (route : q.route = .login)
    (given : (credential q "email").truthy = true ∧ (credential q "password").truthy = true)
    {rows : List (Row UserCol)}
    (completes : exec P.collate (.getUser (credential q "email")) w.db = some (rows, w.db)) :
    ∃ w' : World P, w'.log.any (Event.answers w.nextReq) = false ∧ w'.store = w.store ∧
      run (server P) [.arrive q, .settle 0 false, .settle 0 false] ⟨w, []⟩ =
        enter (server P) (w.context q)
          (loginFound P (w.context q) (credential q "password") rows) ⟨w', []⟩ := by
  let c := w.context q
  let s := Stmt.getUser (credential q "email")
  let k : Option (List (Row UserCol)) → Prog :=
    thenRun (loginFound P c (credential q "password"))
  let w₁ := w.next.complete c s rows w.db
  have looks : handler P c = .issue s (fun _ => .done) (.issue s k .done) := by
    rw [handler, OneRoof.route, show c.req.route = .login from route]
    simp only [login, withCredentials, show c.req = q from rfl, given, and_self, if_true]
    rfl
  have unanswered := fresh.answered (Nat.le_refl w.nextReq)
  refine ⟨w₁.complete c s rows w.db, ?_, rfl, ?_⟩
  · simpa [w₁, World.complete, World.next, Event.answers] using unanswered
  have first : settle (server P) 0 false ⟨w.next, [⟨c, s, fun _ => .done⟩, ⟨c, s, k⟩]⟩ =
      ⟨w₁, [⟨c, s, k⟩]⟩ := (settle_at (k := fun _ => .done) rfl completes).trans rfl
  have second : settle (server P) 0 false ⟨w₁, [⟨c, s, k⟩]⟩ =
      enter (server P) c (k (some rows)) ⟨w₁.complete c s rows w.db, []⟩ :=
    settle_at (s := s) (k := k) rfl completes
  rw [run_cons, arrive_eq, looks]
  exact (congrArg _ first).trans second

/-- A login without both credentials ends at once, and its session is as before. -/
theorem refuse_login {w : World P} (fresh : Fresh ⟨w, []⟩) (route : q.route = .login)
    (missing : ¬ ((credential q "email").truthy = true ∧
      (credential q "password").truthy = true)) :
    (run (server P) [.arrive q, .settle 0 false, .settle 0 false] ⟨w, []⟩).world.store =
      w.store := by
  have unanswered := fresh.answered (Nat.le_refl w.nextReq)
  have refused : step (server P) (.arrive q) ⟨w, []⟩ =
      ⟨{ w.next with
          log := w.log ++ [.answered (w.context q) (.status 400 "Bad Request") (w.store q.sid)]
          store := Function.update w.store q.sid (w.store q.sid) }, []⟩ := by
    rw [arrive_eq, handler, OneRoof.route, World.context, route]
    simp only [login, withCredentials, if_neg missing]
    simp [Prog.send, recover, enter, server, World.perform, World.answer, World.next, unanswered]
  rw [run_cons, refused, run_cons, run_cons, run_nil]
  exact Function.update_eq_self _ _

/-- Ann logs in from a second place. -/
def annAgain : Request where
  sid := 2
  route := .login
  body := .obj [("email", .str "ANN@x"), ("password", .str "pw")]

end Served

end OneRoof
