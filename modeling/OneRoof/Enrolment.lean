import OneRoof.Identity

/-!
# How accounts come into being

A sign-up looks its email up, inserts a row when nobody has it, and looks the email
up once more to learn the id of the row. A first login through Facebook does the
same with the Facebook id, but is told the id of its row. Nothing keeps another
request with the same email from its own look-up in between. Emails and Facebook
ids stay unique, and a sign-up is given its own row, as long as no insert completes
while another one is in flight that should have found the new row.
-/

namespace OneRoof

open Sql Async Async.Prog Prog

variable {P : Platform}

/-- The routes that insert into `tblUSER`. -/
def Route.enrols : Route → Bool
  | .signup | .facebookCallback _ => true
  | _ => false

/-- The account that a new user becomes. -/
def NewUser.account (n : Nat) : NewUser → Account
  | .localUser email _ _ _ _ _ => ⟨.int n, store UserCol.email email.lit.value, .null⟩
  | .facebookUser _ _ _ id => ⟨.int n, .null, store UserCol.facebook_id id.lit.value⟩

/-- The look-up that goes before the insert finds the account. -/
def NewUser.Finds (collate : String → String) (a : Account) : NewUser → Prop
  | .localUser email _ _ _ _ _ => eqLit collate a.email email.lit = some true
  | .facebookUser _ _ _ id => eqLit collate a.facebook_id id.lit = some true

/-- An email that is found again once it is stored: nothing of it is cut off. -/
def Lasting (collate : String → String) (email : JsVal) : Prop :=
  eqLit collate (store UserCol.email email.lit.value) email.lit = some true

/-- No account is one that the look-up of a new user finds. -/
def Unclaimed (collate : String → String) (accounts : List Account) (user : NewUser) : Prop :=
  ∀ a ∈ accounts, ¬ user.Finds collate a

/-- No two accounts have equal emails, or equal Facebook ids. -/
def Distinct (collate : String → String) (accounts : List Account) : Prop :=
  accounts.Pairwise fun a a' => eqValue collate a.email a'.email ≠ some true ∧
    eqValue collate a.facebook_id a'.facebook_id ≠ some true

section Accounts

variable {collate : String → String} {db : Database collate} {user : NewUser} {n : Nat}

/-- A column of texts that are compared with a stored literal. -/
theorem unequal_stored {c : UserCol} {m : Nat} (hc : Columns.type c = .varchar m) {l : Lit}
    (lasting : eqLit collate (store c l.value) l = some true) {row : Row UserCol}
    (hr : row ∈ db.tables.user) (missed : eqLit collate (row c) l ≠ some true) :
    eqValue collate (row c) (store c l.value) ≠ some true := by
  intro same
  have given : l ≠ .null := lit_ne_null lasting
  obtain ⟨s, hs⟩ := store_text hc (lit_value_ne_null given)
  rw [hs] at same lasting
  rcases varchar_cases hc db.sound.user_typed hr with ⟨none, -⟩ | ⟨t, ht, -⟩
  · rw [none] at same
    cases same
  · rw [ht] at same missed
    exact missed (text_eqLit_congr same lasting)

theorem eqValue_null (v : Value) : eqValue collate v .null ≠ some true := by
  cases v <;> nofun

/-- A new account that nobody has claimed is distinct from the others. -/
theorem distinct_insert (distinct : Distinct collate db.tables.accounts)
    (unclaimed : Unclaimed collate db.tables.accounts user)
    (lasting : user.Finds collate (user.account n)) :
    Distinct collate (db.tables.accounts ++ [user.account n]) := by
  refine List.pairwise_append.mpr ⟨distinct, List.pairwise_singleton _ _, fun a ha a' ha' => ?_⟩
  obtain ⟨row, hr, rfl⟩ := List.mem_map.mp ha
  have missed := unclaimed _ ha
  rw [List.mem_singleton.mp ha']
  cases user with
  | localUser email displayName hashPass paymentMethod paymentUsername mobile =>
    exact ⟨unequal_stored (c := UserCol.email) rfl lasting hr missed, eqValue_null _⟩
  | facebookUser facebook_email displayName facebook_token id =>
    exact ⟨eqValue_null _, unequal_stored (c := UserCol.facebook_id) rfl lasting hr missed⟩

/-- An email is that of one row. -/
theorem Distinct.eq_of_email (distinct : Distinct collate db.tables.accounts)
    {row row' : Row UserCol} (hr : row ∈ db.tables.user) (hr' : row' ∈ db.tables.user) {l : Lit}
    (equal : eqLit collate (row .email) l = some true)
    (equal' : eqLit collate (row' .email) l = some true) : row = row' := by
  have keyed : Keyed collate .email db.tables.user :=
    (List.pairwise_map.mp distinct).imp fun h => h.1
  refine keyed.eq_of_key hr hr' ?_
  obtain ⟨s, hs, -⟩ := (varchar_cases (c := UserCol.email) rfl db.sound.user_typed
    hr).resolve_left fun h => eqLit_ne_null equal h.1
  obtain ⟨t, ht, -⟩ := (varchar_cases (c := UserCol.email) rfl db.sound.user_typed
    hr').resolve_left fun h => eqLit_ne_null equal' h.1
  rw [hs] at equal ⊢
  rw [ht] at equal' ⊢
  exact text_eqLit_trans equal equal'

theorem facebook_lasting (profile : Profile) (email name token : JsVal) (n : Nat) :
    (NewUser.facebookUser email name token (.str profile.id)).Finds collate
      ((NewUser.facebookUser email name token (.str profile.id)).account n) := by
  have kept : store UserCol.facebook_id (.text profile.id) = .text profile.id :=
    congrArg Value.text (cut_of_le profile.id_fits)
  exact (congrArg (eqLit collate · (.str profile.id)) kept).trans (eqLit_text _)

end Accounts

/-- The account that a lawful `createUser` adds. -/
theorem account_inserted {c : Ctx} {user : NewUser} {accounts : List Account}
    (lawful : Lawful P c (.createUser user) accounts) {n : Nat} {row : Row UserCol}
    (filled : insertUser P.collate user n = some row) : account row = user.account n := by
  have plain := lawful.plain
  cases lawful.sends with
  | select reads => cases reads
  | createLocal route given =>
    refine (insertUser_local ?_ filled).1
    simp only [List.forall_mem_cons]
    exact ⟨credential_scalar plain "email" (by decide), plain.body _ (by decide), rfl,
      optional_scalar plain _ (by decide), optional_scalar plain _ (by decide),
      optional_scalar plain _ (by decide), nofun⟩
  | createFacebook route =>
    rw [(insertUser_facebook (Profile.id_fits _) filled).1]
    exact congrArg (Account.mk _ _ ∘ Value.text) (cut_of_le (Profile.id_fits _)).symm

/-- The row that the request itself has inserted is there, with its email. -/
def Inserted (w : World P) (c : Ctx) (id : Int) : Prop :=
  ∃ user, ∃ packet : Packet, .completed c (.createUser user) packet ∈ w.log ∧
    packet.insertId = id ∧ ∃ row ∈ w.db.tables.user, row .user_id = .int id ∧
      eqLit P.collate (row .email) (credential c.req "email").lit = some true

/-- A sign-up that is answered with a user has saved the id of its own row. -/
def OwnIds (w : World P) : Prop :=
  ∀ c v user, .answered c (.json v) user ∈ w.log → c.req.route = .signup →
    ∃ u id, user = some u ∧ u.user_id = some id ∧ Inserted w c id

section Stages

/-- The look-up of a sign-up. -/
def looksUp (P : Platform) (c : Ctx) : Pending Stmt Stmt.Reply Act Ctx :=
  ⟨c, .getUser (credential c.req "email"), thenRun fun rows =>
    if rows.length = 0 then
      createLocal P c.req c.user (credential c.req "email") (credential c.req "password")
    else unauthorized c.user⟩

/-- The insert of a sign-up. -/
def signsUp (c : Ctx) (u : SessionUser) : Pending Stmt Stmt.Reply Act Ctx :=
  ⟨c, .createUser (newLocalUser u), thenCatch (fun _ => signedUp u) (unauthorized c.user)⟩

/-- The second look-up of a sign-up. -/
def looksAgain (c : Ctx) (u : SessionUser) : Pending Stmt Stmt.Reply Act Ctx :=
  ⟨c, .getUser u.email, thenRun fun rows => attempt rows.head? fun row =>
    Prog.send (.json { u with user_id := cellInt (row .user_id) }.js)
      (some { u with user_id := cellInt (row .user_id) })⟩

/-- The insert of a first login through Facebook. -/
def entersBy (c : Ctx) (profile : Profile) (token email : String) :
    Pending Stmt Stmt.Reply Act Ctx :=
  ⟨c, .createUser (.facebookUser (.str email) (.str (profileName profile)) (.str token)
      (.str profile.id)), thenCatch
    (fun response => Prog.send (.redirect "/feed.html") (some
      (facebookUser profile token (profileName profile) email response.insertId)))
    (Prog.send (.redirect "/") c.user)⟩

/-- The look-up of a login through Facebook. -/
def looksUpFB (c : Ctx) (profile : Profile) (token : String) : Pending Stmt Stmt.Reply Act Ctx :=
  ⟨c, .getUserFB (.str profile.id), thenRun fun rows => match rows.head? with
    | none => attempt profile.email fun email =>
        query (entersBy c profile token email).stmt (entersBy c profile token email).k
    | some row => Prog.send (.redirect "/feed.html") (some (SessionUser.ofRow row))⟩

/-- What the two routes have in flight, and what holds meanwhile. -/
inductive Enrols (w : World P) : Pending Stmt Stmt.Reply Act Ctx → Prop
  | loose (c : Ctx) {s : Stmt} (reads : s.isSelect = true) : Enrols w ⟨c, s, fun _ => .done⟩
  | looksUp {c : Ctx} (lasting : Lasting P.collate (credential c.req "email")) :
      Enrols w (looksUp P c)
  | signsUp {c : Ctx} {hashPass : String}
      (lasting : Lasting P.collate (credential c.req "email"))
      (unclaimed : Unclaimed P.collate w.db.tables.accounts
        (newLocalUser (signupUser c.req (credential c.req "email") hashPass))) :
      Enrols w (signsUp c (signupUser c.req (credential c.req "email") hashPass))
  | looksAgain {c : Ctx} {u : SessionUser} {id : Int}
      (email : u.email = credential c.req "email") (own : Inserted w c id) :
      Enrols w (looksAgain c u)
  | looksUpFB (c : Ctx) (profile : Profile) (token : String) :
      Enrols w (looksUpFB c profile token)
  | entersBy {c : Ctx} {profile : Profile} {token email : String}
      (unclaimed : Unclaimed P.collate w.db.tables.accounts (.facebookUser (.str email)
        (.str (profileName profile)) (.str token) (.str profile.id))) :
      Enrols w (entersBy c profile token email)

/-- The answers of the two routes: one with a user carries the id of the own row. -/
def Act.Names (w : World P) (c : Ctx) : Act → Prop
  | .send (.json _) user => ∃ u id, user = some u ∧ u.user_id = some id ∧ Inserted w c id
  | .send _ _ => True
  | .sendGathered _ => False
  | _ => True

variable {c : Ctx} {w w' : World P} {φ : Pending Stmt Stmt.Reply Act Ctx → Prop}

theorem Inserted.later {id : Int} (own : Inserted w c id) (grows : w.log <+: w'.log)
    (accounts : w.db.tables.accounts <+: w'.db.tables.accounts) : Inserted w' c id := by
  obtain ⟨user, packet, done, hid, row, hr, key, email⟩ := own
  obtain ⟨row', hr', same⟩ := List.mem_map.mp (accounts.subset (List.mem_map_of_mem hr))
  refine ⟨user, packet, grows.subset done, hid, row', hr', ?_, ?_⟩
  · exact (congrArg Account.user_id same).trans key
  · exact (congrArg (eqLit P.collate ·.email (credential c.req "email").lit) same).trans email

/-- What is in flight stays as it is, unless its key is claimed. -/
theorem Enrols.later {p : Pending Stmt Stmt.Reply Act Ctx} (stage : Enrols w p)
    (grows : w.log <+: w'.log) (accounts : w.db.tables.accounts <+: w'.db.tables.accounts)
    (unclaimed : ∀ user, p.stmt = .createUser user →
      Unclaimed P.collate w.db.tables.accounts user →
      Unclaimed P.collate w'.db.tables.accounts user) : Enrols w' p := by
  cases stage with
  | loose c reads => exact .loose c reads
  | looksUp lasting => exact .looksUp lasting
  | signsUp lasting free => exact .signsUp lasting (unclaimed _ rfl free)
  | looksAgain email own => exact .looksAgain email (own.later grows accounts)
  | looksUpFB c profile token => exact .looksUpFB c profile token
  | entersBy free => exact .entersBy (unclaimed _ rfl free)

theorem send_begins {answer : Answer} {user : Option SessionUser}
    (names : Act.Names w c (.send answer user)) :
    (Prog.send answer user).Begins c φ (Act.Names w c) :=
  ⟨names, fun b => by cases b <;> trivial⟩

theorem refuse_begins (code : Nat) (text : String) (user : Option SessionUser) :
    (Prog.send (.status code text) user).Begins c φ (Act.Names w c) :=
  send_begins trivial

theorem attempt_begins {α : Type} {v : Option α} {f : α → Prog} {ψ : Act → Prop}
    (hf : ∀ a, v = some a → (f a).Begins c φ ψ) : (attempt v f).Begins c φ ψ := by
  cases v with
  | none => trivial
  | some a => exact hf a rfl

/-- The two look-ups of `bankData.getUser`. -/
theorem getUser_begins {email : JsVal} {k : Option (List (Row UserCol)) → Prog}
    (waits : Enrols w ⟨c, .getUser email, k⟩) :
    (bankGetUser email k).Begins c (Enrols w) (Act.Names w c) :=
  ⟨.loose c rfl, waits, trivial⟩

theorem signup_begins (lasting : (credential c.req "email").truthy = true →
      Lasting P.collate (credential c.req "email")) :
    (signup P c.req c.user).Begins c (Enrols w) (Act.Names w c) := by
  unfold signup withCredentials
  split
  · rename_i given
    apply attempt_begins
    intro same _
    split
    · exact getUser_begins (.looksUp (lasting given.1))
    · exact refuse_begins _ _ _
  · exact refuse_begins _ _ _

/-- How a request of the two routes starts. -/
theorem handler_begins (enrols : c.req.route.enrols = true)
    (lasting : c.req.route = .signup → (credential c.req "email").truthy = true →
      Lasting P.collate (credential c.req "email")) :
    (handler P c).Begins c (Enrols w) (Act.Names w c) := by
  cases hr : c.req.route with
  | signup =>
    rw [handler, OneRoof.route, hr]
    exact (signup_begins (lasting hr)).recover (refuse_begins _ _ _)
  | facebookCallback grant =>
    rw [handler, OneRoof.route, hr]
    apply Begins.recover _ (refuse_begins _ _ _)
    cases grant with
    | none => exact send_begins trivial
    | some g => exact ⟨.loose c rfl, .looksUpFB c g.1 g.2, trivial⟩
  | _ => simp [hr, Route.enrols] at enrols

/-- A statement that fails leaves nothing in flight, and nobody logged in. -/
theorem Enrols.fails {p : Pending Stmt Stmt.Reply Act Ctx} (stage : Enrols w p) :
    (p.k none).Begins p.ctx (Enrols w') (Act.Names w' p.ctx) := by
  cases stage with
  | loose | looksUp | looksAgain | looksUpFB => trivial
  | signsUp => exact refuse_begins _ _ _
  | entersBy => exact send_begins trivial

variable {db : Database P.collate}

/-- The first look-up finds nobody, or the sign-up is refused. -/
theorem looksUp_completes {rows : List (Row UserCol)} (plain : c.req.Plain)
    (lasting : Lasting P.collate (credential c.req "email"))
    (he : exec P.collate (.getUser (credential c.req "email")) w.db = some (rows, db)) :
    ((looksUp P c).k (some rows)).Begins c
      (Enrols (w.complete c (.getUser (credential c.req "email")) rows db))
      (Act.Names (w.complete c (.getUser (credential c.req "email")) rows db) c) := by
  obtain ⟨-, rfl, found⟩ := selectUser_scalar (credential_scalar plain "email" (by decide)) he
  dsimp only [looksUp, thenRun]
  split
  · rename_i empty
    apply attempt_begins
    intro hashPass _
    apply attempt_begins
    intro _ _
    split
    · trivial
    · apply attempt_begins
      intro _ _
      refine ⟨.signsUp lasting fun a ha finds => ?_, trivial⟩
      obtain ⟨row, hr, rfl⟩ := List.mem_map.mp ha
      have mem : row ∈ rows := by
        rw [found]
        exact List.mem_filter.mpr ⟨hr, decide_eq_true finds⟩
      rw [List.eq_nil_of_length_eq_zero empty] at mem
      cases mem
  · exact refuse_begins _ _ _

/-- Behind the insert the own row is there. -/
theorem signsUp_completes {u : SessionUser} {packet : Packet}
    (email : u.email = credential c.req "email")
    (lasting : Lasting P.collate (credential c.req "email"))
    (lawful : Lawful P c (.createUser (newLocalUser u)) w.db.tables.accounts)
    (he : exec P.collate (.createUser (newLocalUser u)) w.db = some (packet, db)) :
    ((signsUp c u).k (some packet)).Begins c
      (Enrols (w.complete c (.createUser (newLocalUser u)) packet db))
      (Act.Names (w.complete c (.createUser (newLocalUser u)) packet db) c) := by
  obtain ⟨row, filled, inserted, hid⟩ := exec_createUser he
  have same := account_inserted lawful filled
  have own : Inserted (w.complete c (.createUser (newLocalUser u)) packet db) c
      packet.insertId := by
    refine ⟨_, packet, List.mem_append_right _ (List.mem_singleton_self _), rfl, row, ?_, ?_, ?_⟩
    · exact inserted ▸ List.mem_append_right _ (List.mem_singleton_self row)
    · rw [hid]
      exact congrArg Account.user_id same
    · have stored : row .email = store UserCol.email u.email.lit.value :=
        congrArg Account.email same
      rw [stored, email]
      exact lasting
  apply Begins.recover _ (refuse_begins _ _ _)
  exact getUser_begins (.looksAgain email own)

/-- The second look-up finds the own row and no other. -/
theorem looksAgain_completes {u : SessionUser} {rows : List (Row UserCol)} {id : Int}
    (plain : c.req.Plain) (email : u.email = credential c.req "email") (own : Inserted w c id)
    (distinct : Distinct P.collate w.db.tables.accounts)
    (he : exec P.collate (.getUser u.email) w.db = some (rows, db)) :
    ((looksAgain c u).k (some rows)).Begins c (Enrols (w.complete c (.getUser u.email) rows db))
      (Act.Names (w.complete c (.getUser u.email) rows db) c) := by
  have scalar : u.email.isScalar = true := by
    rw [email]
    exact credential_scalar plain "email" (by decide)
  apply attempt_begins
  intro row head
  obtain ⟨mem, -, equal, -⟩ := getUser_head scalar he head
  obtain ⟨-, same, -⟩ := selectUser_scalar scalar he
  subst same
  have later : Inserted (w.complete c (.getUser u.email) rows w.db) c id :=
    own.later (List.prefix_append _ _) List.prefix_rfl
  obtain ⟨user, packet, -, -, row', mem', key, equal'⟩ := own
  rw [← email] at equal'
  have one : row = row' := distinct.eq_of_email mem mem' equal equal'
  refine send_begins ⟨_, id, rfl, ?_, later⟩
  rw [one, key]
  rfl

theorem looksUpFB_completes {rows : List (Row UserCol)} (profile : Profile) (token : String)
    (he : exec P.collate (.getUserFB (.str profile.id)) w.db = some (rows, db)) :
    ((looksUpFB c profile token).k (some rows)).Begins c
      (Enrols (w.complete c (.getUserFB (.str profile.id)) rows db))
      (Act.Names (w.complete c (.getUserFB (.str profile.id)) rows db) c) := by
  obtain ⟨-, rfl, found⟩ := selectUser_scalar (c := .facebook_id) rfl he
  dsimp only [looksUpFB, thenRun]
  cases head : rows.head? with
  | none =>
    apply attempt_begins
    intro email _
    refine ⟨.entersBy fun a ha finds => ?_, trivial⟩
    obtain ⟨row, hr, rfl⟩ := List.mem_map.mp ha
    have mem : row ∈ rows := by
      rw [found]
      exact List.mem_filter.mpr ⟨hr, decide_eq_true finds⟩
    rw [List.head?_eq_none_iff.mp head] at mem
    cases mem
  | some row => exact send_begins trivial

/-- What the callback of a completed statement starts, and whom it answers with. -/
theorem Enrols.completes {p : Pending Stmt Stmt.Reply Act Ctx} (stage : Enrols w p)
    (lawful : Lawful P p.ctx p.stmt w.db.tables.accounts)
    (distinct : Distinct P.collate w.db.tables.accounts) {r : p.stmt.Reply}
    (he : exec P.collate p.stmt w.db = some (r, db)) :
    (p.k (some r)).Begins p.ctx (Enrols (w.complete p.ctx p.stmt r db))
      (Act.Names (w.complete p.ctx p.stmt r db) p.ctx) := by
  cases stage with
  | loose => trivial
  | looksUp lasting => exact looksUp_completes lawful.plain lasting he
  | signsUp lasting unclaimed => exact signsUp_completes rfl lasting lawful he
  | looksAgain email own => exact looksAgain_completes lawful.plain email own distinct he
  | looksUpFB c profile token => exact looksUpFB_completes profile token he
  | entersBy unclaimed => refine Begins.recover (send_begins ?_) (send_begins ?_) <;> trivial

end Stages

/-- Only plain requests arrive, no email of a sign-up is cut off when it is stored, and when
a new user is inserted no other insert is in flight whose look-up would find the new row. -/
def EnrolsAlone (σ : Config P) : Label P → Prop
  | .arrive q => q.Plain ∧ (q.route = .signup → (credential q "email").truthy = true →
      Lasting P.collate (credential q "email"))
  | .settle i _ => ∀ p ∈ σ.pending[i]?, ∀ user, p.stmt = .createUser user →
      ∀ p' ∈ σ.pending.eraseIdx i, ∀ user', p'.stmt = .createUser user' →
        ¬ user'.Finds P.collate (user.account σ.world.db.next.user)
  | .disturb _ => False

/-- Accounts are distinct, and what is in flight for the two routes is on its way. -/
structure Enrolled (σ : Config P) : Prop where
  holds : (identity P).Holds σ
  distinct : Distinct P.collate σ.world.db.tables.accounts
  stages : ∀ p ∈ σ.pending, p.ctx.req.route.enrols = true → Enrols σ.world p
  own : OwnIds σ.world

section Steps

variable {c : Ctx} {w : World P} {ps : List (Pending Stmt Stmt.Reply Act Ctx)}

theorem OwnIds.later {w' : World P} (own : OwnIds w)
    (accounts : w.db.tables.accounts <+: w'.db.tables.accounts) {new : List Event}
    (log : w'.log = w.log ++ new)
    (named : ∀ c v user, .answered c (.json v) user ∈ new → c.req.route = .signup →
      ∃ u id, user = some u ∧ u.user_id = some id ∧ Inserted w' c id) : OwnIds w' := by
  intro c v user answered route
  rw [log] at answered
  rcases List.mem_append.mp answered with old | isNew
  · obtain ⟨u, id, hu, hid, inserted⟩ := own c v user old route
    exact ⟨u, id, hu, hid, inserted.later ⟨new, log.symm⟩ accounts⟩
  · exact named c v user isNew route

theorem OwnIds.answer (own : OwnIds w) {answer : Answer} {user : Option SessionUser}
    (names : Act.Names w c (.send answer user)) : OwnIds (w.answer c answer user).2 := by
  unfold World.answer
  split
  · exact own
  · have log : w.log ++ [.answered c answer user] = w.log ++ [.answered c answer user] := rfl
    refine own.later List.prefix_rfl log ?_
    intro c' v user' answered _
    cases List.mem_singleton.mp answered
    obtain ⟨u, id, hu, hid, inserted⟩ := names
    exact ⟨u, id, hu, hid, inserted.later (List.prefix_append _ _) List.prefix_rfl⟩

theorem OwnIds.perform (own : OwnIds w) {a : Act} (names : a.Names w c) :
    OwnIds (World.perform c a w).2 := by
  cases a with
  | send answer user => exact own.answer names
  | sendGathered user => exact absurd names id
  | push entry total => exact own
  | compareSync hash =>
    have log : w.log ++ [.compared c hash] = w.log ++ [.compared c hash] := rfl
    refine own.later List.prefix_rfl log ?_
    intro c' v user answered _
    cases List.mem_singleton.mp answered

theorem Act.Names.later {w' : World P} {a : Act} (names : a.Names w c) (grows : w.log <+: w'.log)
    (same : w'.db = w.db) : a.Names w' c := by
  cases a with
  | send answer user =>
    cases answer with
    | json v =>
      obtain ⟨u, id, hu, hid, inserted⟩ := names
      exact ⟨u, id, hu, hid, inserted.later grows (by rw [same])⟩
    | _ => trivial
  | sendGathered user => exact names
  | _ => trivial

/-- A callback of the two routes answers and starts as it may. -/
theorem enter_enrols (ps : List (Pending Stmt Stmt.Reply Act Ctx)) {prog : Prog}
    (begins : prog.Begins c (Enrols w) (Act.Names w c)) (own : OwnIds w) :
    OwnIds (enter (server P) c prog ⟨w, ps⟩).world ∧
      ∀ p ∈ (enter (server P) c prog ⟨w, ps⟩).pending, p ∈ ps ∨ Enrols w p := by
  have kept : ∀ a w', Act.Names w c a →
      (OwnIds w' ∧ w.log <+: w'.log ∧ w'.db = w.db) →
      OwnIds ((server P).perform c a w').2 ∧ w.log <+: ((server P).perform c a w').2.log ∧
        ((server P).perform c a w').2.db = w.db := by
    rintro a w' names ⟨own, grows, same⟩
    refine ⟨own.perform (names.later grows same), grows.trans ?_, (perform_db c a w').trans same⟩
    exact enter_log c (.act a fun _ => .done) ⟨w', []⟩
  obtain ⟨⟨own', -⟩, new, pending, each⟩ :=
    enter_begins kept begins ⟨w, ps⟩ ⟨own, List.prefix_rfl, rfl⟩
  refine ⟨own', fun p hp => ?_⟩
  rw [pending] at hp
  exact (List.mem_append.mp hp).imp id (each p)

/-- Other routes answer for themselves. -/
theorem enter_other {prog : Prog} (other : c.req.route.enrols = false) (own : OwnIds w) :
    OwnIds (enter (server P) c prog ⟨w, ps⟩).world := by
  obtain ⟨new, log, ctx⟩ := enter_events c prog ⟨w, ps⟩
  refine own.later (by rw [enter_db]) log ?_
  intro c' v user answered route
  have hc : c' = c := ctx _ answered
  rw [← hc, route] at other
  cases other

theorem enter_stages {prog : Prog} (own : OwnIds w)
    (stages : ∀ p ∈ ps, p.ctx.req.route.enrols = true → Enrols w p)
    (begins : c.req.route.enrols = true → prog.Begins c (Enrols w) (Act.Names w c)) :
    (∀ p ∈ (enter (server P) c prog ⟨w, ps⟩).pending, p.ctx.req.route.enrols = true →
      Enrols (enter (server P) c prog ⟨w, ps⟩).world p) ∧
    OwnIds (enter (server P) c prog ⟨w, ps⟩).world := by
  have later : ∀ p, Enrols w p → Enrols (enter (server P) c prog ⟨w, ps⟩).world p := by
    intro p stage
    refine stage.later (enter_log c prog ⟨w, ps⟩) ?_ ?_
    · rw [enter_db]
    · rw [enter_db]
      exact fun _ _ free => free
  by_cases enrols : c.req.route.enrols = true
  · obtain ⟨own', each⟩ := enter_enrols ps (begins enrols) own
    refine ⟨fun p hp route => later p ?_, own'⟩
    exact (each p hp).elim (fun old => stages p old route) id
  · refine ⟨fun p hp route => later p ?_, enter_other (Bool.eq_false_iff.mpr enrols) own⟩
    rcases mem_enter hp with old | ⟨hc, -⟩
    · exact stages p old route
    · exact absurd (hc ▸ route) enrols

theorem Sends.enrols {user : NewUser} (sends : Sends P c (.createUser user)) :
    c.req.route.enrols = true := by
  cases sends with
  | select reads => cases reads
  | createLocal route => rw [route]; rfl
  | createFacebook route => rw [route]; rfl

/-- An insert in flight is of a user whom nobody has claimed. -/
theorem Enrols.claims {p : Pending Stmt Stmt.Reply Act Ctx} (stage : Enrols w p) {user : NewUser}
    (inserts : p.stmt = .createUser user) (n : Nat) :
    Unclaimed P.collate w.db.tables.accounts user ∧ user.Finds P.collate (user.account n) := by
  cases stage with
  | loose c reads =>
    simp only at inserts
    subst inserts
    cases reads
  | signsUp lasting unclaimed =>
    cases inserts
    exact ⟨unclaimed, lasting⟩
  | entersBy unclaimed =>
    cases inserts
    exact ⟨unclaimed, facebook_lasting _ _ _ _ n⟩
  | looksUp | looksAgain | looksUpFB => cases inserts

variable {σ : Config P}

/-- The accounts after a statement of the server has completed. -/
theorem complete_accounts (enrolled : Enrolled σ) {i : Nat}
    {p : Pending Stmt Stmt.Reply Act Ctx} (hp : σ.pending[i]? = some p) {r : p.stmt.Reply}
    {db : Database P.collate} (he : exec P.collate p.stmt σ.world.db = some (r, db)) :
    db.tables.accounts = σ.world.db.tables.accounts ∨
      ∃ user, p.stmt = .createUser user ∧ db.tables.accounts =
        σ.world.db.tables.accounts ++ [user.account σ.world.db.next.user] := by
  have lawful := (enrolled.holds.2 p (List.mem_of_getElem? hp)).1
  by_cases creates : ∃ user, p.stmt = .createUser user
  · obtain ⟨user, hs⟩ := creates
    refine Or.inr ⟨user, hs, ?_⟩
    generalize p.stmt = s at lawful r he hs
    subst hs
    obtain ⟨row, filled, inserted, -⟩ := exec_createUser he
    rw [Tables.accounts, inserted, List.map_append, List.map_singleton,
      account_inserted lawful filled]
    rfl
  · exact Or.inl (accounts_same lawful he fun user h => creates ⟨user, h⟩)

theorem complete_enrolled (enrolled : Enrolled σ) {i : Nat}
    (alone : EnrolsAlone σ (.settle i false)) {p : Pending Stmt Stmt.Reply Act Ctx}
    (hp : σ.pending[i]? = some p) {r : p.stmt.Reply} {db : Database P.collate}
    (he : exec P.collate p.stmt σ.world.db = some (r, db)) :
    Distinct P.collate db.tables.accounts ∧
      (∀ p' ∈ σ.pending.eraseIdx i, p'.ctx.req.route.enrols = true →
        Enrols (σ.world.complete p.ctx p.stmt r db) p') ∧
      OwnIds (σ.world.complete p.ctx p.stmt r db) := by
  have mem := List.mem_of_getElem? hp
  have lawful := (enrolled.holds.2 p mem).1
  have more := accounts_exec lawful he
  have log : (σ.world.complete p.ctx p.stmt r db).log =
    σ.world.log ++ [.completed p.ctx p.stmt r] := rfl
  refine ⟨?_, fun p' hp' route => ?_, enrolled.own.later more log ?_⟩
  · rcases complete_accounts enrolled hp he with same | ⟨user, inserts, accounts⟩
    · rw [same]
      exact enrolled.distinct
    · have sends := lawful.sends
      rw [inserts] at sends
      obtain ⟨unclaimed, lasting⟩ := (enrolled.stages p mem sends.enrols).claims inserts
        σ.world.db.next.user
      rw [accounts]
      exact distinct_insert enrolled.distinct unclaimed lasting
  · refine (enrolled.stages p' (List.mem_of_mem_eraseIdx hp') route).later
      (List.prefix_append _ _) more fun user' waits free a ha => ?_
    rcases complete_accounts enrolled hp he with same | ⟨user, inserts, accounts⟩
    · exact free a (same ▸ ha)
    · rw [World.complete, accounts] at ha
      rcases List.mem_append.mp ha with old | isNew
      · exact free a old
      · rw [List.mem_singleton.mp isNew]
        exact alone p hp user inserts p' hp' user' waits
  · intro c v user answered _
    cases List.mem_singleton.mp answered

theorem arrive_enrolled {q : Request} (alone : EnrolsAlone σ (.arrive q)) (enrolled : Enrolled σ)
    (holds : (identity P).Holds (step (server P) (.arrive q) σ)) :
    Enrolled (step (server P) (.arrive q) σ) := by
  have stages : ∀ p ∈ σ.pending, p.ctx.req.route.enrols = true → Enrols σ.world.next p :=
    fun p hp route => (enrolled.stages p hp route).later List.prefix_rfl List.prefix_rfl
      fun _ _ free => free
  have own : OwnIds σ.world.next :=
    enrolled.own.later List.prefix_rfl (List.append_nil _).symm fun _ _ _ h => nomatch h
  obtain ⟨stages', own'⟩ := enter_stages (c := σ.world.context q) own stages
    fun enrols => handler_begins enrols alone.2
  refine ⟨holds, ?_, stages', own'⟩
  rw [arrive_eq, enter_db]
  exact enrolled.distinct

theorem settle_enrolled {i : Nat} {lost : Bool} (alone : EnrolsAlone σ (.settle i lost))
    (enrolled : Enrolled σ) (holds : (identity P).Holds (settle (server P) i lost σ)) :
    Enrolled (settle (server P) i lost σ) := by
  rcases server_settle_cases i lost σ with same | ⟨p, hp, ⟨hs, -⟩ | ⟨r, db, rfl, he, hs⟩⟩
  · rw [same]
    exact enrolled
  · have mem := List.mem_of_getElem? hp
    have log : (σ.world.fail p.ctx p.stmt).log = σ.world.log ++ [.failed p.ctx p.stmt] := rfl
    obtain ⟨stages', own'⟩ := enter_stages (c := p.ctx) (w := σ.world.fail p.ctx p.stmt)
      (enrolled.own.later List.prefix_rfl log fun _ _ _ h => nomatch List.mem_singleton.mp h)
      (fun p' hp' route => (enrolled.stages p' (List.mem_of_mem_eraseIdx hp') route).later
        (List.prefix_append _ _) List.prefix_rfl fun _ _ free => free)
      fun enrols => (enrolled.stages p mem enrols).fails
    rw [hs] at holds ⊢
    refine ⟨holds, ?_, stages', own'⟩
    rw [enter_db]
    exact enrolled.distinct
  · have mem := List.mem_of_getElem? hp
    obtain ⟨distinct, stages, own⟩ := complete_enrolled enrolled alone hp he
    obtain ⟨stages', own'⟩ := enter_stages (c := p.ctx) own stages fun enrols =>
      (enrolled.stages p mem enrols).completes (enrolled.holds.2 p mem).1 enrolled.distinct he
    rw [hs] at holds ⊢
    refine ⟨holds, ?_, stages', own'⟩
    rw [enter_db]
    exact distinct

theorem step_enrolled (σ : Config P) (l : Label P) (alone : EnrolsAlone σ l)
    (enrolled : Enrolled σ) : Enrolled (step (server P) l σ) := by
  have plain : PlainLabel P l := by
    cases l with
    | arrive q => exact .arrive alone.1
    | settle i lost => exact .settle i lost
    | disturb db => exact absurd alone id
  have holds := (Discipline.step_holds l (plain_admits plain) σ enrolled.holds).1
  cases l with
  | arrive q => exact arrive_enrolled alone enrolled holds
  | settle i lost => exact settle_enrolled alone enrolled holds
  | disturb db => exact absurd alone id

end Steps

/-- In every run of plain requests in which no insert completes while another one is in
flight that should find its row, emails and Facebook ids are unique and every sign-up saves
the id of its own row. -/
theorem accounts_unique (P : Platform) (ls : List (Label P))
    (alone : Along (server P) EnrolsAlone ls (startUp P)) :
    Keyed P.collate .email (run (server P) ls (startUp P)).world.db.tables.user ∧
      Keyed P.collate .facebook_id (run (server P) ls (startUp P)).world.db.tables.user ∧
      OwnIds (run (server P) ls (startUp P)).world := by
  have start : Enrolled (startUp P) :=
    ⟨Discipline.idle_holds startUp_sound, .nil, fun _ hp => absurd hp List.not_mem_nil,
      fun _ _ _ h => absurd h List.not_mem_nil⟩
  have enrolled := run_invariant EnrolsAlone Enrolled step_enrolled alone start
  have pairs := List.pairwise_map.mp enrolled.distinct
  exact ⟨pairs.imp fun h => h.1, pairs.imp fun h => h.2, enrolled.own⟩

instance (collate : String → String) (a : Account) :
    (user : NewUser) → Decidable (user.Finds collate a)
  | .localUser _ _ _ _ _ _ => inferInstanceAs (Decidable (_ = _))
  | .facebookUser _ _ _ _ => inferInstanceAs (Decidable (_ = _))

instance (collate : String → String) (email : JsVal) : Decidable (Lasting collate email) :=
  inferInstanceAs (Decidable (_ = _))

/-- The condition as a check on the state before a step. -/
def enrolsAlone (σ : Config P) : Label P → Bool
  | .arrive q => q.plainly &&
      (!(credential q "email").truthy || decide (Lasting P.collate (credential q "email")))
  | .settle i _ => σ.pending[i]?.all fun p => match p.stmt with
    | .createUser user => (σ.pending.eraseIdx i).all fun p' => match p'.stmt with
      | .createUser user' => !decide (user'.Finds P.collate (user.account σ.world.db.next.user))
      | _ => true
    | _ => true
  | .disturb _ => false

theorem enrolsAlone_of_check {σ : Config P} {l : Label P} (check : enrolsAlone σ l = true) :
    EnrolsAlone σ l := by
  cases l with
  | arrive q =>
    obtain ⟨plainly, lasting⟩ := Bool.and_eq_true_iff.mp check
    refine ⟨Request.plain_of_plainly plainly, fun _ given => ?_⟩
    simpa [given] using lasting
  | disturb db => cases check
  | settle i lost =>
    intro p hp user hs p' hp' user' hs'
    simp only [enrolsAlone, Option.mem_def.mp hp, Option.all_some, hs] at check
    have apart := List.all_eq_true.mp check p' hp'
    simpa [hs'] using apart

/-- A request to sign up. -/
def signUpAs (sid : Nat) (email : String) : Request where
  sid := sid
  route := .signup
  body := .obj [("email", .str email), ("password", .str "pw"), ("confirmPass", .str "pw"),
    ("displayName", .str "new")]

/-- Two people sign up at once, in two sessions, step by step in turn. -/
def signUpTogether (email email' : String) : List (Label samplePlatform) :=
  [.arrive (signUpAs 0 email), .arrive (signUpAs 1 email')] ++
    List.replicate 10 (.settle 0 false)

theorem accounts_unique_sample :
    (run (server samplePlatform) (signUpTogether "ann@x" "bob@x")
      (startUp samplePlatform)).world.db.tables.user.map (· .user_id) = [.int 1, .int 2] ∧
    Keyed samplePlatform.collate .email (run (server samplePlatform)
      (signUpTogether "ann@x" "bob@x") (startUp samplePlatform)).world.db.tables.user ∧
    Keyed samplePlatform.collate .facebook_id (run (server samplePlatform)
      (signUpTogether "ann@x" "bob@x") (startUp samplePlatform)).world.db.tables.user ∧
    OwnIds (run (server samplePlatform) (signUpTogether "ann@x" "bob@x")
      (startUp samplePlatform)).world :=
  ⟨by decide +kernel, accounts_unique samplePlatform (signUpTogether "ann@x" "bob@x")
    (along_of_check enrolsAlone (fun _ _ => enrolsAlone_of_check) (by decide +kernel))⟩

/-- With one email for both there are two rows, and both sessions name the first. -/
theorem signed_up_twice :
    (∀ l ∈ signUpTogether "ann@x" "ann@x", PlainLabel samplePlatform l) ∧
    ¬ Keyed samplePlatform.collate .email (run (server samplePlatform)
      (signUpTogether "ann@x" "ann@x") (startUp samplePlatform)).world.db.tables.user ∧
    ((run (server samplePlatform) (signUpTogether "ann@x" "ann@x")
      (startUp samplePlatform)).world.store 1).map (·.user_id) = some (some 1) :=
  ⟨plain_of_plainly (by decide +kernel), by decide +kernel, by decide +kernel⟩

end OneRoof
