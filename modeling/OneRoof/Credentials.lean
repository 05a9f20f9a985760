import OneRoof.Replay
import OneRoof.Safety
import OneRoof.Sessions

/-!
# Nobody is signed in without credentials

Three requests put a user into a session: a login, whose password fits the hash that its
look-up has found, a sign-up, whose row was inserted with the hash of its password, and the
return from Facebook, whose profile has found or has become the account. Every other handler
keeps the user it was given. So whoever is in a session, at any time of any run, was let in
by one of the three, whatever the bodies of the requests are.
-/

namespace OneRoof

open Sql Async Async.Prog Prog

variable {P : Platform}

/-- The user that a request lets in, and what the log shows of the reason. -/
inductive LetIn (P : Platform) (log : List Event) (c : Ctx) : SessionUser → Prop
  | login {rows : List (Row UserCol)} {row : Row UserCol} {password hash : String}
      (route : c.req.route = .login)
      (found : .completed c (.getUser (credential c.req "email")) rows ∈ log)
      (head : rows.head? = some row) (given : credential c.req "password" = .str password)
      (stored : row .hash_pass = .text hash)
      (fits : P.compareSync password hash = some true) : LetIn P log c (SessionUser.ofRow row)
  | signup {rows : List (Row UserCol)} {row : Row UserCol} {password : String} {packet : Packet}
      (route : c.req.route = .signup) (given : credential c.req "password" = .str password)
      (confirmed : (c.req.body.get "confirmPass").looseEq (c.req.body.get "password") = some true)
      (created : .completed c (.createUser (newLocalUser (signupUser c.req
        (credential c.req "email") (P.hashSync password c.req.salt)))) packet ∈ log)
      (found : .completed c (.getUser (credential c.req "email")) rows ∈ log)
      (head : rows.head? = some row) :
      LetIn P log c { signupUser c.req (credential c.req "email")
        (P.hashSync password c.req.salt) with user_id := cellInt (row .user_id) }
  | known {rows : List (Row UserCol)} {row : Row UserCol} {profile : Profile} {token : String}
      (route : c.req.route = .facebookCallback (some (profile, token)))
      (found : .completed c (.getUserFB (.str profile.id)) rows ∈ log)
      (head : rows.head? = some row) : LetIn P log c (SessionUser.ofRow row)
  | joined {profile : Profile} {token email : String} {packet : Packet}
      (route : c.req.route = .facebookCallback (some (profile, token)))
      (mailed : profile.email = some email)
      (created : .completed c (.createUser (.facebookUser (.str email)
        (.str (profileName profile)) (.str token) (.str profile.id))) packet ∈ log) :
      LetIn P log c (facebookUser profile token (profileName profile) email packet.insertId)

/-- A request of the session, none of the first `since` ones, has let this user in. -/
def Admitted (P : Platform) (since : Nat) (log : List Event) (sid : Nat) (u : SessionUser) : Prop :=
  ∃ c u₀, c.req.sid = sid ∧ since ≤ c.rid ∧ LetIn P log c u₀ ∧ u₀.Same u

section Later

variable {log log' : List Event} {c : Ctx} {u u' : SessionUser} {since sid : Nat}

theorem LetIn.later (letIn : LetIn P log c u) (le : log <+: log') : LetIn P log' c u := by
  cases letIn with
  | login route found head given stored fits =>
    exact .login route (le.subset found) head given stored fits
  | signup route given confirmed created found head =>
    exact .signup route given confirmed (le.subset created) (le.subset found) head
  | known route found head => exact .known route (le.subset found) head
  | joined route mailed created => exact .joined route mailed (le.subset created)

theorem Admitted.later (admitted : Admitted P since log sid u) (le : log <+: log') :
    Admitted P since log' sid u := by
  obtain ⟨c, u₀, same, new, letIn, keeps⟩ := admitted
  exact ⟨c, u₀, same, new, letIn.later le, keeps⟩

theorem Admitted.same (admitted : Admitted P since log sid u) (keeps : u.Same u') :
    Admitted P since log sid u' := by
  obtain ⟨c, u₀, session, new, letIn, kept⟩ := admitted
  exact ⟨c, u₀, session, new, letIn, keeps.user_id.trans kept.user_id,
    keeps.email.trans kept.email, keeps.facebook_id.trans kept.facebook_id⟩

theorem LetIn.admitted (letIn : LetIn P log c u) (new : since ≤ c.rid) :
    Admitted P since log c.req.sid u :=
  ⟨c, u, rfl, new, letIn, rfl, rfl, rfl⟩

end Later

/-- An action saves only users who have been let in. -/
def Act.Admits (P : Platform) (since : Nat) (log : List Event) (sid : Nat) : Act → Prop
  | .send _ user => ∀ u, user = some u → Admitted P since log sid u
  | .sendGathered user => ∀ u, user = some u → Admitted P since log sid u
  | .compareSync _ => True
  | .push _ _ => True

/-- The watched sessions hold users who were let in, and the numbers given out go on from
`since`. -/
structure LetInOnly (P : Platform) (watched : Nat → Prop) (since : Nat) (w : World P) : Prop where
  sessions : ∀ sid, watched sid → ∀ u, w.store sid = some u → Admitted P since w.log sid u
  numbers : since ≤ w.nextReq

section Kept

variable {watched : Nat → Prop} {since : Nat} {w : World P} {c : Ctx}

theorem LetInOnly.logged (good : LetInOnly P watched since w) {w' : World P}
    (store : w'.store = w.store) (numbers : w'.nextReq = w.nextReq) (le : w.log <+: w'.log) :
    LetInOnly P watched since w' :=
  ⟨fun sid watch u hu => (good.sessions sid watch u (store ▸ hu)).later le,
    numbers.symm ▸ good.numbers⟩

theorem LetInOnly.answer (good : LetInOnly P watched since w) {answer : Answer}
    {user : Option SessionUser}
    (admits : watched c.req.sid → ∀ u, user = some u → Admitted P since w.log c.req.sid u) :
    LetInOnly P watched since (w.answer c answer user).2 := by
  unfold World.answer
  split
  · exact good
  refine ⟨fun sid watch u hu => ?_, good.numbers⟩
  simp only [Function.update_apply] at hu
  split at hu
  · rename_i own
    subst own
    exact (admits watch u hu).later (List.prefix_append _ _)
  · exact (good.sessions sid watch u hu).later (List.prefix_append _ _)

end Kept

theorem log_refl (w : World P) : w.log <+: w.log := List.prefix_rfl

theorem log_trans {w w' w'' : World P} (first : w.log <+: w'.log) (second : w'.log <+: w''.log) :
    w.log <+: w''.log :=
  first.trans second

theorem log_perform (c : Ctx) (a : Act) (w : World P) :
    w.log <+: ((server P).perform c a w).2.log := by
  rcases perform_log c a w with same | ⟨e, -, -, grown⟩
  · exact same ▸ List.prefix_rfl
  · exact grown ▸ List.prefix_append _ _

/-- Every watched session holds a user who was let in, and the log only grows. -/
def admission (P : Platform) (watched : Nat → Prop) (since : Nat) : Discipline (server P) where
  Good := LetInOnly P watched since
  Le w w' := w.log <+: w'.log
  Allowed _ _ _ := True
  Permit c a w := watched c.req.sid → a.Admits P since w.log c.req.sid
  refl := log_refl
  trans := log_trans
  mono _ _ := trivial
  exec_good := by
    intro c s w r w' good _ he
    obtain ⟨⟨r', db⟩, -, hw⟩ := Option.map_eq_some_iff.mp he
    cases hw
    have le : w.log <+: w.log ++ [.completed c s r] := List.prefix_append _ _
    exact ⟨good.logged rfl rfl le, le⟩
  refuse_good := by
    intro c s w good
    have le : w.log <+: w.log ++ [.failed c s] := List.prefix_append _ _
    exact ⟨good.logged rfl rfl le, le⟩
  perform_good := by
    intro c a w good admits
    refine ⟨?_, log_perform c a w⟩
    cases a with
    | send answer user => exact good.answer admits
    | sendGathered user => exact good.answer admits
    | push entry total => exact ⟨good.sessions, good.numbers⟩
    | compareSync hash => exact good.logged rfl rfl (List.prefix_append _ _)

section Handlers

variable {watched : Nat → Prop} {since : Nat} {c : Ctx} {w : World P}

/-- The request is a new one, and the user it was given has been let in. -/
structure Ctx.Admitted (since : Nat) (c : Ctx) (w : World P) : Prop where
  new : since ≤ c.rid
  user : ∀ u, c.user = some u → OneRoof.Admitted P since w.log c.req.sid u

theorem Ctx.Admitted.later {w' : World P} (known : c.Admitted since w) (le : w.log <+: w'.log) :
    c.Admitted since w' :=
  ⟨known.new, fun u user => (known.user u user).later le⟩

theorem Ctx.Admitted.send (known : c.Admitted since w) (answer : Answer) :
    (admission P watched since).Safe c (Prog.send answer c.user) w :=
  safe_send fun _ => known.user

/-- What a session that nobody watches does is free. -/
theorem unwatched_safe (free : ¬ watched c.req.sid) (prog : Prog) :
    (admission P watched since).Safe c prog w :=
  issues_safe (issues_of_forall (φ := fun _ => True) (fun _ => trivial) prog)
    (fun _ _ _ => trivial) (fun _ _ watch => absurd watch free) w

theorem plain_admission (known : c.Admitted since w) (good : LetInOnly P watched since w)
    (ordinary : c.req.route.identifies = false) :
    (admission P watched since).Safe c (OneRoof.route P c) w := by
  refine acts_safe (𝒟 := admission P watched since) (issues_of_forall (fun _ => trivial) _)
    (route_acts P c ordinary) good (fun _ _ _ _ => trivial) fun a w' le plain _ => ?_
  have keeps : ∀ user, c.Keeps user → ∀ u, user = some u →
      OneRoof.Admitted P since w'.log c.req.sid u := by
    intro user keeps u' hu'
    obtain ⟨u, hu, same⟩ := keeps u' hu'
    exact ((known.later le).user u hu).same same
  cases a with
  | send answer user => exact keeps user plain
  | sendGathered user => exact keeps user plain
  | compareSync hash => trivial
  | push entry total => trivial

/-- What the log shows once a look-up has completed. -/
theorem completed_mem {w w' : World P} {s : Stmt} {r : s.Reply} {db : Database P.collate}
    (le : (w'.complete c s r db).log <+: w.log) : .completed c s r ∈ w.log :=
  le.subset (List.mem_append_right _ (List.mem_singleton_self _))

theorem login_admission (known : c.Admitted since w) (route : c.req.route = .login) :
    (admission P watched since).Safe c (login P c.req c.user) w := by
  have reply : ∀ (w' : World P) answer, (admission P watched since).Le w w' →
      (admission P watched since).Safe c (Prog.send answer c.user) w' := fun _ answer later =>
    (known.later later).send answer
  unfold login withCredentials
  split
  · refine safe_getUser trivial (fun _ _ _ => trivial) fun w' rows db _ _ _ later _ => ?_
    simp only [thenRun]
    cases head : rows.head? with
    | none => exact reply _ _ later
    | some row =>
      refine safe_attempt fun _ _ => ⟨fun _ => trivial, safe_attempt fun valid fits => ?_⟩
      have found := completed_mem (List.prefix_rfl :
        (w'.complete c (.getUser (credential c.req "email")) rows db).log <+: _)
      split
      · rename_i right
        refine safe_send fun _ u hu => ?_
        cases hu
        cases given : credential c.req "password" with
        | str password =>
          cases stored : row .hash_pass with
          | text hash =>
            rw [given, stored, isValidPassword, right] at fits
            exact LetIn.admitted (.login route (List.mem_append_left _ found) head
              given stored fits) known.new
          | _ => simp [isValidPassword, given, stored] at fits
        | _ => simp [isValidPassword, given] at fits
      · exact reply _ _ (later.trans (List.prefix_append _ [Event.compared c (row .hash_pass)]))
  · exact known.send _

/-- The password is compared, and the session keeps its user. -/
theorem updatePass_admission (known : c.Admitted since w) :
    (admission P watched since).Safe c (updatePass P c.req c.user) w := by
  refine safe_withUser fun u hu => ?_
  have reply : ∀ (w' : World P) answer, (admission P watched since).Le w w' →
      (admission P watched since).Safe c (Prog.send answer (some u)) w' := fun w' answer later =>
    hu ▸ (known.later later).send answer
  refine safe_getUserCatch trivial (fun w' later _ => reply w' _ later)
    fun w' rows db _ _ _ later _ => ?_
  cases rows.head? with
  | none => exact reply _ _ later
  | some row =>
    refine ⟨fun _ => trivial, safe_attempt fun valid _ => ?_⟩
    have later' := later.trans (List.prefix_append _ [.compared c (row .hash_pass)])
    split
    · exact safe_attempt fun pass _ => safe_start trivial (reply _ _ later')
    · exact reply _ _ later'

theorem signup_admission (known : c.Admitted since w) (route : c.req.route = .signup) :
    (admission P watched since).Safe c (signup P c.req c.user) w := by
  unfold signup withCredentials
  split
  · refine safe_attempt fun same confirmed => ?_
    split
    · rename_i agrees
      refine safe_getUser trivial (fun _ _ _ => trivial) fun w₁ rows db _ _ _ later₁ _ => ?_
      simp only [thenRun]
      split
      · refine safe_attempt fun hashPass hashed => safe_attempt fun _ _ => ?_
        split
        · trivial
        refine safe_attempt fun _ _ => safe_thenCatch trivial
          (fun w₂ later₂ _ => ((known.later later₁).later later₂).send _)
          fun w₂ packet db₂ _ _ _ later₂ _ => ?_
        refine safe_getUser trivial (fun _ _ _ => trivial) fun w₃ rows db₃ later₃ _ _ _ _ => ?_
        refine safe_attempt fun row head => safe_send fun _ u hu => ?_
        cases hu
        have found := completed_mem (List.prefix_rfl :
          (w₃.complete c (.getUser (credential c.req "email")) rows db₃).log <+: _)
        have created := List.mem_append_left
          [.completed c (.getUser (credential c.req "email")) rows] (completed_mem later₃)
        rw [agrees] at confirmed
        cases given : credential c.req "password" with
        | str password =>
          rw [given, createHash, Option.some.injEq] at hashed
          subst hashed
          exact LetIn.admitted (.signup route given confirmed created found head) known.new
        | _ => simp [createHash, given] at hashed
      · exact (known.later later₁).send _
    · exact known.send _
  · exact known.send _

theorem facebookCallback_admission (known : c.Admitted since w) {grant : Option (Profile × String)}
    (route : c.req.route = .facebookCallback grant) :
    (admission P watched since).Safe c (facebookCallback c.user grant) w := by
  cases grant with
  | none => exact known.send _
  | some g =>
    obtain ⟨profile, token⟩ := g
    refine safe_start trivial (safe_thenRun trivial fun w' rows db _ _ _ later _ => ?_)
    cases head : rows.head? with
    | none =>
      refine safe_attempt fun email mailed => safe_thenCatch trivial
        (fun w'' later' _ => ((known.later later).later later').send _)
        fun w'' packet db' _ _ _ _ _ => safe_send fun _ u hu => ?_
      cases hu
      exact LetIn.admitted (.joined route mailed (completed_mem List.prefix_rfl)) known.new
    | some row =>
      refine safe_send fun _ u hu => ?_
      cases hu
      exact LetIn.admitted (.known route (completed_mem List.prefix_rfl) head) known.new

theorem route_admission (known : c.Admitted since w) (good : LetInOnly P watched since w) :
    (admission P watched since).Safe c (OneRoof.route P c) w := by
  cases ordinary : c.req.route.identifies with
  | false => exact plain_admission known good ordinary
  | true =>
    cases route : c.req.route with
    | login => rw [OneRoof.route, route]; exact login_admission known route
    | signup => rw [OneRoof.route, route]; exact signup_admission known route
    | updatePass => rw [OneRoof.route, route]; exact updatePass_admission known
    | facebookCallback grant =>
      rw [OneRoof.route, route]
      exact facebookCallback_admission known route
    | _ => simp [route, Route.identifies] at ordinary

end Handlers

theorem own_admission {watched : Nat → Prop} {since : Nat} {l : Label P} (own : Label.own P l) :
    (admission P watched since).Admits l := by
  cases l with
  | settle i lost => trivial
  | disturb db => exact absurd own id
  | arrive q =>
    intro w good
    have later : LetInOnly P watched since w.next :=
      ⟨good.sessions, Nat.le_succ_of_le good.numbers⟩
    refine ⟨later, List.prefix_rfl, ?_⟩
    by_cases watch : watched q.sid
    · have known : (w.context q).Admitted since w.next :=
        ⟨good.numbers, fun u hu => good.sessions q.sid watch u hu⟩
      exact (route_admission known later).recover later
        fun w' le _ => (known.later le).send _
    · exact unwatched_safe watch _

theorem run_admitted {ls : List (Label P)} (own : ∀ l ∈ ls, Label.own P l) :
    LetInOnly P (fun _ => True) 0 (run (server P) ls (startUp P)).world := by
  have start : (admission P (fun _ => True) 0).Holds (startUp P) :=
    Discipline.idle_holds ⟨fun _ _ _ signedIn => (by cases signedIn), Nat.zero_le _⟩
  exact (Discipline.run_holds ls (fun l hl => own_admission (own l hl)) _ start).1.1

/-- Whoever a request was given had been let in. -/
theorem occurs_let_in {ls : List (Label P)} (own : ∀ l ∈ ls, Label.own P l) {c : Ctx}
    (occurs : Occurs c (run (server P) ls (startUp P))) :
    c.Admitted 0 (run (server P) ls (startUp P)).world := by
  obtain ⟨before, q, after, rfl, rfl⟩ := occurs_arrived occurs
  have own' : ∀ l ∈ before, Label.own P l := fun l mem => own l (List.mem_append_left _ mem)
  have known : ((run (server P) before (startUp P)).world.context q).Admitted 0
      (run (server P) before (startUp P)).world :=
    ⟨Nat.zero_le _, fun u hu => (run_admitted own').sessions q.sid trivial u hu⟩
  refine known.later ?_
  rw [run_append]
  exact run_log _ _

section SignOut

variable {σ : Config P} {q : Request}

/-- A sign-out is answered as it arrives, and empties its session. -/
theorem signout_step (fresh : Fresh σ) (route : q.route = .signout) :
    step (server P) (.arrive q) σ =
      ⟨{ σ.world.next with
          log := σ.world.log ++ [.answered (σ.world.context q) (.redirect "/") none]
          store := Function.update σ.world.store q.sid none }, σ.pending⟩ := by
  have unanswered := fresh.answered (Nat.le_refl σ.world.nextReq)
  rw [arrive_eq, handler, OneRoof.route, World.context, route]
  simp [signout, Prog.send, recover, enter, server, World.perform, World.answer, World.next,
    unanswered]

theorem signout_holds (fresh : Fresh σ) (route : q.route = .signout)
    (idle : ∀ p ∈ σ.pending, p.ctx.req.sid ≠ q.sid) :
    (admission P (fun sid => sid = q.sid) (σ.world.nextReq + 1)).Holds
      (step (server P) (.arrive q) σ) := by
  rw [signout_step fresh route]
  refine ⟨⟨fun sid watch u signedIn => ?_, Nat.le_refl _⟩, fun p flies => ⟨trivial, ?_⟩⟩
  · rw [watch] at signedIn
    simp at signedIn
  · intro w' _ _
    exact ⟨fun r w'' _ => unwatched_safe (idle p flies) _, unwatched_safe (idle p flies) _⟩

/-- Once a session without requests in flight has signed out, whoever is in it later was let
in by a request that came after the sign-out. -/
theorem signout_lasts (P : Platform) (before after : List (Label P)) (q : Request)
    (route : q.route = .signout) (own : ∀ l ∈ before ++ after, Label.own P l)
    (idle : ∀ p ∈ (run (server P) before (startUp P)).pending, p.ctx.req.sid ≠ q.sid)
    (u : SessionUser)
    (signedIn : (run (server P) (before ++ .arrive q :: after) (startUp P)).world.store q.sid =
      some u) :
    Admitted P ((run (server P) before (startUp P)).world.nextReq + 1)
      (run (server P) (before ++ .arrive q :: after) (startUp P)).world.log q.sid u := by
  have fresh : Fresh (run (server P) before (startUp P)) := run_fresh _ _ startUp_fresh
  have holds := (Discipline.run_holds after
    (fun l mem => own_admission (own l (List.mem_append_right _ mem))) _
    (signout_holds fresh route idle)).1
  rw [run_append, run_cons] at signedIn ⊢
  exact holds.1.sessions q.sid rfl u signedIn

/-- Ann comes back by a login. -/
def annsReturn : List (Label samplePlatform) :=
  [.arrive { sid := 0, route := .login, body := .obj [("email", .str "Ann@X"),
    ("password", .str "pw")] }, .settle 0 false, .settle 0 false]

theorem signout_lasts_sample : ∃ u,
    (run (server samplePlatform) (annsDay.take 6 ++ .arrive { sid := 0, route := .signout } ::
      annsReturn) (startUp samplePlatform)).world.store 0 = some u ∧
    Admitted samplePlatform
      ((run (server samplePlatform) (annsDay.take 6) (startUp samplePlatform)).world.nextReq + 1)
      (run (server samplePlatform) (annsDay.take 6 ++ .arrive { sid := 0, route := .signout } ::
        annsReturn) (startUp samplePlatform)).world.log 0 u := by
  obtain ⟨u, signedIn⟩ := Option.isSome_iff_exists.mp (by decide +kernel :
    ((run (server samplePlatform) (annsDay.take 6 ++ .arrive { sid := 0, route := .signout } ::
      annsReturn) (startUp samplePlatform)).world.store 0).isSome)
  exact ⟨u, signedIn, signout_lasts samplePlatform (annsDay.take 6) annsReturn
    { sid := 0, route := .signout } rfl (by decide +kernel) (by decide +kernel) u signedIn⟩

/-- A look-up that was in flight as the session signed out brings its user back. -/
example : ((run (server samplePlatform) (annsDay.take 6 ++ [
    .arrive { sid := 0, route := .settings }, .arrive { sid := 0, route := .signout },
    .settle 0 false]) (startUp samplePlatform)).world.store 0).isSome := by decide +kernel

end SignOut

end OneRoof
