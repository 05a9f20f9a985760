import OneRoof.Housing

/-!
# Whose houses a session is shown

The house that a session remembers comes from a look-up of the residences of its user and
from nowhere else, so it is one in which that user lived at some time. Everything that reads
the data of a house reads it for the house that the session remembers. So whatever the
requests are and however they interleave, a house is shown only to those who live there, or
who did and whose session does not know better yet.
-/

namespace OneRoof

open Sql Async Async.Prog Prog

variable {P : Platform}

/-- The house that a session remembers is one of its user's at some time of the log. -/
def Lived (log : List Event) (u : SessionUser) : Prop :=
  ∀ house, u.houseID = some house → ∃ n earlier, u.user_id = some n ∧ earlier <+: log ∧
    ∃ e ∈ residences earlier, e.house = house ∧ e.user = n

theorem Lived.later {log log' : List Event} {u : SessionUser} (lived : Lived log u)
    (le : log <+: log') : Lived log' u := by
  intro house remembered
  obtain ⟨n, earlier, id, before, resides⟩ := lived house remembered
  exact ⟨n, earlier, id, before.trans le, resides⟩

/-- The data of a house is read for the house of the session. -/
def ReadsOwn (c : Ctx) (s : Stmt) : Prop :=
  ∀ house, s.readsHouse = some house → ∃ u, c.user = some u ∧ u.houseID = some house

/-- What a handler makes of the user it was given: the house may be forgotten, and whoever is
visited is changed by `loadProfile` only. -/
structure SessionUser.Stays (c : Ctx) (u u' : SessionUser) : Prop where
  user_id : u'.user_id = u.user_id
  houseID : u'.houseID = none ∨ u'.houseID = u.houseID
  requestedProfile : u'.requestedProfile = u.requestedProfile ∨
    c.req.route = .loadProfile ∧ u'.requestedProfile = c.req.body.get "loadEmail"

/-- Nobody is saved, or somebody who has just come in, or the user of the session. -/
def Ctx.KeepsPlace (c : Ctx) (user : Option SessionUser) : Prop :=
  ∀ u', user = some u' → u'.houseID = none ∧ u'.requestedProfile = .undefined ∨
    ∃ u, c.user = some u ∧ u.Stays c u'

/-- What an action saves; lists are gathered for the tasks only. -/
def Act.KeepsPlace (c : Ctx) : Act → Prop
  | .send _ user => c.KeepsPlace user
  | .sendGathered user => c.req.route = .tasks ∧ c.KeepsPlace user
  | .compareSync _ => True
  | .push _ _ => c.req.route = .tasks

/-- A program that reads and saves no other house than the one of its session. -/
def Homely (c : Ctx) (prog : Prog) : Prop :=
  prog.Issues (ReadsOwn c) ∧ prog.Acts (Act.KeepsPlace c)

section Combinators

variable {c : Ctx}

theorem Ctx.keepsPlace_none (c : Ctx) : c.KeepsPlace none := fun _ h => by cases h

theorem Ctx.keepsPlace_user (c : Ctx) : c.KeepsPlace c.user :=
  fun u user => Or.inr ⟨u, user, rfl, Or.inr rfl, Or.inl rfl⟩

theorem Ctx.keepsPlace_some {u u' : SessionUser} (user : c.user = some u)
    (stays : u.Stays c u') : c.KeepsPlace (some u') := by
  rintro v ⟨⟩
  exact Or.inr ⟨u, user, stays⟩

theorem Ctx.keepsPlace_entered {u' : SessionUser} (homeless : u'.houseID = none)
    (visit : u'.requestedProfile = .undefined) : c.KeepsPlace (some u') := by
  rintro v ⟨⟩
  exact Or.inl ⟨homeless, visit⟩

theorem reads_none {s : Stmt} (other : s.readsHouse = none) : ReadsOwn c s := by
  intro house reads
  rw [other] at reads
  cases reads

theorem homely_done : Homely c done := ⟨trivial, trivial⟩

theorem homely_throw : Homely c throw := ⟨trivial, trivial⟩

theorem homely_send {answer : Answer} {user : Option SessionUser} (keeps : c.KeepsPlace user) :
    Homely c (Prog.send answer user) :=
  ⟨send_issues _ _, send_acts keeps⟩

theorem homely_sendUser (answer : Answer) : Homely c (Prog.send answer c.user) :=
  homely_send c.keepsPlace_user

theorem homely_issue {s : Stmt} {k : Option s.Reply → Prog} {rest : Prog}
    (other : s.readsHouse = none) (callbacks : ∀ r, Homely c (k r)) (rests : Homely c rest) :
    Homely c (.issue s k rest) :=
  ⟨⟨reads_none other, fun r => (callbacks r).1, rests.1⟩, fun r => (callbacks r).2, rests.2⟩

theorem homely_query {s : Stmt} {k : Option s.Reply → Prog} (reads : ReadsOwn c s)
    (callbacks : ∀ r, Homely c (k r)) : Homely c (query s k) :=
  ⟨query_issues reads fun r => (callbacks r).1, query_acts fun r => (callbacks r).2⟩

theorem homely_start {s : Stmt} {rest : Prog} (other : s.readsHouse = none)
    (rests : Homely c rest) : Homely c (start s rest) :=
  homely_issue other (fun _ => homely_done) rests

theorem homely_thenRun {α : Type} {f : α → Prog} (runs : ∀ r, Homely c (f r)) (o : Option α) :
    Homely c (thenRun f o) :=
  ⟨thenRun_issues (fun r => (runs r).1) o, thenRun_acts (fun r => (runs r).2) o⟩

theorem homely_thenCatch {α : Type} {f : α → Prog} {h : Prog} (runs : ∀ r, Homely c (f r))
    (caught : Homely c h) (o : Option α) : Homely c (thenCatch f h o) :=
  ⟨thenCatch_issues (fun r => (runs r).1) caught.1 o,
    thenCatch_acts (fun r => (runs r).2) caught.2 o⟩

theorem homely_attempt {α : Type} {v : Option α} {f : α → Prog}
    (runs : ∀ a, v = some a → Homely c (f a)) : Homely c (attempt v f) :=
  ⟨attempt_issues fun a h => (runs a h).1, attempt_acts fun a h => (runs a h).2⟩

theorem homely_startEach {f : JsVal → Option Stmt} {broken : Bool} {rest : Prog}
    (other : ∀ v s, f v = some s → s.readsHouse = none) (rests : Homely c rest)
    (vs : List JsVal) : Homely c (startEach f broken rest vs) :=
  ⟨startEach_issues (fun v s h => reads_none (other v s h)) rests.1 vs, startEach_acts rests.2 vs⟩

theorem homely_bankGetUser {email : JsVal} {k : Option (List (Row UserCol)) → Prog}
    (callbacks : ∀ r, Homely c (k r)) : Homely c (bankGetUser email k) :=
  homely_start rfl (homely_query (reads_none rfl) callbacks)

theorem homely_act {a : Act} {k : Bool → Prog} (keeps : a.KeepsPlace c)
    (callbacks : ∀ b, Homely c (k b)) : Homely c (act a k) :=
  ⟨fun b => (callbacks b).1, keeps, fun b => (callbacks b).2⟩

theorem homely_andThen {p q : Prog} (first : Homely c p) (second : Homely c q) :
    Homely c (p.andThen q) :=
  ⟨first.1.andThen second.1, first.2.andThen second.2⟩

end Combinators

section Handlers

variable {c : Ctx}

/-- The session user, in whatever way its other properties have changed. -/
theorem homely_sendSame {answer : Answer} {u u' : SessionUser} (user : c.user = some u)
    (id : u'.user_id = u.user_id) (house : u'.houseID = u.houseID)
    (visit : u'.requestedProfile = u.requestedProfile) : Homely c (Prog.send answer (some u')) :=
  homely_send (Ctx.keepsPlace_some user ⟨id, Or.inr house, Or.inl visit⟩)

theorem homely_unauthorized : Homely c (unauthorized c.user) := homely_sendUser _

theorem updateColumn_homely {stmt : Option Int → Stmt}
    (other : ∀ id, (stmt id).readsHouse = none) : Homely c (updateColumn c.user stmt) :=
  homely_attempt fun u user => homely_bankGetUser <| homely_thenCatch
    (fun rows => by
      split
      · exact homely_start (other _) homely_done
      · exact homely_sendSame user rfl rfl rfl)
    (homely_sendSame user rfl rfl rfl)

theorem gatherTasks_homely (route : c.req.route = .tasks) (total : Nat)
    (queries : List (JsVal × JsVal)) :
    Homely c (gatherTasks c.user total queries) := by
  induction queries with
  | nil => exact homely_done
  | cons a rest ih =>
    refine homely_issue rfl (homely_thenRun fun rows => homely_act route fun complete => ?_) ih
    cases complete with
    | false => exact homely_done
    | true =>
      refine homely_act ⟨route, c.keepsPlace_user⟩ fun ok => ?_
      cases ok with
      | true => exact homely_done
      | false => exact homely_throw

theorem tasks_homely (route : c.req.route = .tasks) : Homely c (tasks c.req c.user) := by
  refine homely_attempt fun _ _ => ?_
  split
  · split
    · exact homely_sendUser _
    · exact gatherTasks_homely route _ _
    · refine homely_startEach (fun v s hs => ?_) homely_done _
      obtain ⟨a, -, rfl⟩ := Option.map_eq_some_iff.mp hs
      rfl
  · exact homely_throw

theorem addTask_homely : Homely c (addTask c.req c.user) := by
  refine homely_query (reads_none rfl) <| homely_thenCatch (fun _ => ?_) (homely_sendUser _)
  refine homely_andThen (homely_attempt fun owners _ => ?_) (homely_attempt fun chore _ => ?_)
  · refine homely_startEach (fun o s hs => ?_) homely_done _
    obtain ⟨owner, -, hs⟩ := Option.bind_eq_some_iff.mp hs
    obtain ⟨u, hu, hs⟩ := Option.bind_eq_some_iff.mp hs
    cases hs
    rfl
  · split
    · exact homely_issue rfl (homely_thenCatch (fun _ => homely_sendUser _) homely_done)
        (homely_sendUser _)
    · exact homely_attempt fun amount _ => homely_start rfl (homely_sendUser _)

theorem signup_homely : Homely c (signup P c.req c.user) := by
  unfold signup withCredentials
  split
  · refine homely_attempt fun same _ => ?_
    split
    · refine homely_bankGetUser <| homely_thenRun fun rows => ?_
      split
      · refine homely_attempt fun hashPass _ => homely_attempt fun _ _ => ?_
        split
        · exact homely_throw
        · refine homely_attempt fun _ _ => homely_query (reads_none rfl) <|
            homely_thenCatch (fun _ => ?_) homely_unauthorized
          exact homely_bankGetUser <| homely_thenRun fun rows => homely_attempt fun row _ =>
            homely_send (Ctx.keepsPlace_entered rfl rfl)
      · exact homely_unauthorized
    · exact homely_unauthorized
  · exact homely_sendUser _

theorem login_homely : Homely c (login P c.req c.user) := by
  unfold login withCredentials
  split
  · refine homely_bankGetUser <| homely_thenRun fun rows => ?_
    split
    · exact homely_unauthorized
    · refine homely_attempt fun _ _ => homely_act trivial fun _ => homely_attempt fun valid _ => ?_
      split
      · exact homely_send (Ctx.keepsPlace_entered rfl rfl)
      · exact homely_unauthorized
  · exact homely_sendUser _

theorem updatePass_homely : Homely c (updatePass P c.req c.user) := by
  refine homely_attempt fun u user => homely_bankGetUser <| homely_thenCatch (fun rows => ?_)
    (homely_sendSame user rfl rfl rfl)
  split
  · refine homely_act trivial fun _ => homely_attempt fun valid _ => ?_
    split
    · exact homely_attempt fun pass _ => homely_start rfl (homely_sendSame user rfl rfl rfl)
    · exact homely_sendSame user rfl rfl rfl
  · exact homely_sendSame user rfl rfl rfl

theorem facebookCallback_homely (grant : Option (Profile × String)) :
    Homely c (facebookCallback c.user grant) := by
  cases grant with
  | none => exact homely_sendUser _
  | some g =>
    obtain ⟨profile, token⟩ := g
    refine homely_start rfl (homely_query (reads_none rfl) <| homely_thenRun fun rows => ?_)
    split
    · exact homely_attempt fun email _ => homely_query (reads_none rfl) <|
        homely_thenCatch (fun _ => homely_send (Ctx.keepsPlace_entered rfl rfl)) (homely_sendUser _)
    · exact homely_send (Ctx.keepsPlace_entered rfl rfl)

/-- Only `house` and `settings` look up where the user lives. -/
theorem route_homely (P : Platform) (c : Ctx) (house : c.req.route ≠ .house)
    (settings : c.req.route ≠ .settings) : Homely c (OneRoof.route P c) := by
  unfold OneRoof.route
  cases hr : c.req.route with
  | house => exact absurd hr house
  | settings => exact absurd hr settings
  | upload =>
    refine homely_attempt fun u user => homely_attempt fun filename _ => ?_
    dsimp only
    split
    · exact homely_start rfl (homely_sendSame user rfl rfl rfl)
    · exact homely_sendSame user rfl rfl rfl
  | signout => exact homely_send c.keepsPlace_none
  | uploads => exact homely_attempt fun _ _ => homely_sendUser _
  | feed | facebook => exact homely_sendUser _
  | houseDetails | getGroups =>
    refine homely_attempt fun u user => homely_query (fun h reads => ⟨u, user, reads⟩) <|
      homely_thenRun fun _ => homely_sendSame user rfl rfl rfl
  | profile =>
    exact homely_attempt fun u user => homely_bankGetUser <| homely_thenRun fun _ =>
      homely_sendSame user rfl rfl rfl
  | loadProfile =>
    exact homely_attempt fun u user => homely_send <|
      Ctx.keepsPlace_some user ⟨rfl, Or.inr rfl, Or.inr ⟨hr, rfl⟩⟩
  | getUsers =>
    refine homely_attempt fun u user => ?_
    split
    · rename_i h remembered
      refine homely_query (fun h' reads => ⟨u, user, remembered.trans reads⟩) <|
        homely_thenRun fun _ => homely_sendSame user rfl rfl rfl
    · exact homely_done
  | joinGroup => exact homely_attempt fun u user => homely_start rfl homely_done
  | login => exact login_homely
  | signup => exact signup_homely
  | updatePass => exact updatePass_homely
  | facebookCallback grant => exact facebookCallback_homely grant
  | updateDispl =>
    refine homely_attempt fun u user => homely_bankGetUser <| homely_thenCatch (fun rows => ?_)
      (homely_sendSame user rfl rfl rfl)
    split
    · exact homely_start rfl (homely_sendSame user rfl rfl rfl)
    · exact homely_sendSame user rfl rfl rfl
  | createHouse =>
    exact homely_query (reads_none rfl) <| homely_thenCatch (fun rows =>
      homely_attempt fun u user => homely_start rfl (homely_sendUser _)) (homely_sendUser _)
  | createGroup =>
    refine homely_query (reads_none rfl) <| homely_thenRun fun rows =>
      homely_attempt fun members _ => homely_startEach (fun v s hs => ?_) homely_done _
    obtain ⟨user_id, -, hs⟩ := Option.bind_eq_some_iff.mp hs
    obtain ⟨text, -, hs⟩ := Option.bind_eq_some_iff.mp hs
    cases hs
    rfl
  | joinHouse =>
    refine homely_query (reads_none rfl) <| homely_thenCatch (fun rows => ?_) homely_done
    split
    · exact homely_attempt fun u user => homely_start rfl homely_done
    · exact homely_sendUser _
  | viewUserGroups =>
    exact homely_attempt fun u user => homely_bankGetUser <| homely_thenRun fun _ =>
      homely_attempt fun row _ => homely_query (reads_none rfl) <| homely_thenRun fun _ =>
        homely_sendSame user rfl rfl rfl
  | getUserGroups =>
    exact homely_attempt fun u user => homely_bankGetUser <| homely_thenRun fun _ =>
      homely_query (reads_none rfl) <| homely_thenRun fun _ => homely_sendSame user rfl rfl rfl
  | updatePaymentMethod | updatePaymentUser | updateMobile =>
    exact updateColumn_homely fun _ => rfl
  | tasks => exact tasks_homely hr
  | viewTasks =>
    exact homely_attempt fun u user => homely_attempt fun _ _ => homely_attempt fun _ _ =>
      homely_query (reads_none rfl) <| homely_thenCatch
        (fun _ => homely_sendSame user rfl rfl rfl) (homely_sendSame user rfl rfl rfl)
  | leaveHouse =>
    exact homely_attempt fun u user => homely_query (reads_none rfl) <| homely_thenRun fun _ =>
      homely_send (Ctx.keepsPlace_some user ⟨rfl, Or.inl rfl, Or.inl rfl⟩)
  | accounts | delete | updateAccountName | transactions => exact homely_throw
  | uploadProfile => exact homely_done
  | addTask => exact addTask_homely
  | getComment =>
    dsimp only [getComment]
    split
    · exact homely_query (reads_none rfl) <| homely_thenRun fun _ => homely_sendUser _
    · exact homely_done
  | addComment =>
    exact homely_attempt fun _ _ => homely_attempt fun u user =>
      homely_query (reads_none rfl) <| homely_thenRun fun _ => homely_sendUser _
  | deleteComment =>
    exact homely_query (reads_none rfl) <| homely_thenRun fun _ => homely_sendUser _
  | deleteTask =>
    exact homely_attempt fun _ _ => homely_query (reads_none rfl) <| homely_thenRun fun _ =>
      homely_sendUser _
  | updateTask => exact homely_start rfl homely_done

end Handlers

/-- The table is the register of the log, and what a session remembers is in its past. -/
structure Lodgings (P : Platform) (w : World P) : Prop where
  register : ShowsHousing w.db (residences w.log)
  sessions : ∀ sid u, w.store sid = some u → Lived w.log u

/-- An action saves nobody who remembers a house without having lived there. -/
def Act.SavesLived (log : List Event) : Act → Prop
  | .send _ user => ∀ u, user = some u → Lived log u
  | .sendGathered user => ∀ u, user = some u → Lived log u
  | .compareSync _ => True
  | .push _ _ => True

/-- The data of a house is read for a user who has lived there. -/
def ReadsLived (c : Ctx) (s : Stmt) (log : List Event) : Prop :=
  ∀ house, s.readsHouse = some house → ∃ u, c.user = some u ∧ u.houseID = some house ∧ Lived log u

section Kept

variable {w : World P} {c : Ctx}

theorem Lodgings.log (good : Lodgings P w) {e : Event} (other : ∀ c s r, e ≠ .completed c s r) :
    Lodgings P { w with log := w.log ++ [e] } := by
  refine ⟨?_, fun sid u hu => (good.sessions sid u hu).later (List.prefix_append _ _)⟩
  have idle : Quiet [e] := fun e' mem => by rwa [List.mem_singleton.mp mem]
  simp only [residences, replay_append, replay_quiet idle]
  exact good.register

theorem Lodgings.complete (good : Lodgings P w) {s : Stmt} {r : s.Reply}
    {db : Database P.collate} (he : exec P.collate s w.db = some (r, db)) :
    Lodgings P (w.complete c s r db) := by
  refine ⟨?_, fun sid u hu => (good.sessions sid u hu).later (List.prefix_append _ _)⟩
  simp only [World.complete, residences, replay_append]
  exact housing_refines.preserve (c := c) trivial he good.register

theorem Lodgings.answer (good : Lodgings P w) {answer : Answer} {user : Option SessionUser}
    (lived : ∀ u, user = some u → Lived w.log u) : Lodgings P (w.answer c answer user).2 := by
  unfold World.answer
  split
  · exact good
  have logged := good.log (e := .answered c answer user) fun _ _ _ h => Event.noConfusion h
  refine ⟨logged.register, fun sid u hu => ?_⟩
  simp only [Function.update_apply] at hu
  split at hu
  · exact (lived u hu).later (List.prefix_append _ _)
  · exact logged.sessions sid u hu

end Kept

/-- Sessions remember houses in which their users have lived. -/
def lodging (P : Platform) : Discipline (server P) where
  Good := Lodgings P
  Le w w' := w.log <+: w'.log
  Allowed c s w := ReadsLived c s w.log
  Permit _ a w := a.SavesLived w.log
  refl := log_refl
  trans := log_trans
  mono le allowed house reads := by
    obtain ⟨u, user, remembers, lived⟩ := allowed house reads
    exact ⟨u, user, remembers, lived.later le⟩
  exec_good := by
    intro c s w r w' good _ he
    obtain ⟨⟨r', db⟩, hx, hw⟩ := Option.map_eq_some_iff.mp he
    cases hw
    exact ⟨good.complete hx, List.prefix_append _ _⟩
  refuse_good good := ⟨good.log fun _ _ _ h => Event.noConfusion h, List.prefix_append _ _⟩
  perform_good := by
    intro c a w good saves
    refine ⟨?_, log_perform c a w⟩
    cases a with
    | send answer user => exact good.answer saves
    | sendGathered user => exact good.answer saves
    | push entry total => exact ⟨good.register, good.sessions⟩
    | compareSync hash => exact good.log fun _ _ _ h => Event.noConfusion h

section Safe

variable {c : Ctx} {w : World P}

theorem homely_safe {prog : Prog} (homely : Homely c prog)
    (known : ∀ u, c.user = some u → Lived w.log u) (good : Lodgings P w) :
    (lodging P).Safe c prog w := by
  refine acts_safe (𝒟 := lodging P) homely.1 homely.2 good (fun s w' le reads house h => ?_)
    fun a w' le keeps => ?_
  · obtain ⟨u, user, remembers⟩ := reads house h
    exact ⟨u, user, remembers, (known u user).later le⟩
  · have lived : ∀ user, c.KeepsPlace user → ∀ u, user = some u → Lived w'.log u := by
      intro user keeps u' hu' house remembers
      rcases keeps u' hu' with ⟨homeless, -⟩ | ⟨u, hu, stays⟩
      · rw [homeless] at remembers
        cases remembers
      · rw [stays.user_id]
        rcases stays.houseID with homeless | same
        · rw [homeless] at remembers
          cases remembers
        · exact (known u hu).later le house (same ▸ remembers)
    cases a with
    | send answer user => exact lived user keeps
    | sendGathered user => exact lived user keeps.2
    | compareSync hash => trivial
    | push entry total => trivial

/-- The house that a look-up has found is one in which the user lives. -/
theorem lived_of_found {u : SessionUser} {rows : List (Row HouseUserCol)} {row : Row HouseUserCol}
    {db : Database P.collate} (good : Lodgings P w)
    (he : exec P.collate (.getHouse u.user_id) w.db = some (rows, db))
    (head : rows.head? = some row) {log : List Event} (le : w.log <+: log) {u' : SessionUser}
    (id : u'.user_id = u.user_id) (house : u'.houseID = cellInt (row .house_id)) :
    Lived log u' := by
  intro h remembers
  have mem := List.mem_of_head? head
  have reads := getHouse_reads good.register he
  cases known : u.user_id with
  | none =>
    rw [known] at reads
    rw [show rows = [] from reads] at mem
    cases mem
  | some n =>
    rw [known] at reads
    rw [show rows = _ from reads] at mem
    obtain ⟨e, resides, rfl⟩ := List.mem_map.mp mem
    obtain ⟨entered, own⟩ := List.mem_filter.mp resides
    refine ⟨n, w.log, id.trans known, le, e, entered, ?_, of_decide_eq_true own⟩
    rw [house] at remembers
    exact Option.some.inj remembers

/-- The house whose code is looked up is the one that was asked for. -/
theorem houseCode_same {id : Option Int} {db db' : Database P.collate} {rs : List (Row HouseCol)}
    {h : Row HouseCol} (he : exec P.collate (.getHouseCode id) db = some (rs, db'))
    (head : rs.head? = some h) : cellInt (h .house_id) = id := by
  cases he
  obtain ⟨mem, hits⟩ := List.mem_filter.mp (List.mem_of_head? head)
  have equal := (Cond.hits_iff P.collate).mp hits
  cases id with
  | none => simp [Cond.eval, idLit, eqLit_null] at equal
  | some m =>
    rw [(int_cell_lit ⟨rfl, rfl⟩ db.sound.house_typed mem m).mp equal, cellInt]

theorem house_safe (known : ∀ u, c.user = some u → Lived w.log u) :
    (lodging P).Safe c (house c.user) w := by
  refine safe_withUser fun u user => safe_thenRun (fun h reads => by cases reads)
    fun w' rows db le good he _ _ => ?_
  cases head : rows.head? with
  | none =>
    refine safe_send fun u' hu' => ?_
    cases hu'
    exact (known u user).later (le.trans (List.prefix_append _ _))
  | some row =>
    refine safe_send fun u' hu' => ?_
    cases hu'
    exact lived_of_found good he head (List.prefix_append _ _) rfl rfl

theorem settings_safe (known : ∀ u, c.user = some u → Lived w.log u) :
    (lodging P).Safe c (settings c.user) w := by
  refine safe_withUser fun u user => safe_thenRun (fun h reads => by cases reads)
    fun w' rows db le good he _ _ => ?_
  cases head : rows.head? with
  | none =>
    refine safe_send fun u' hu' => ?_
    cases hu'
    exact (known u user).later (le.trans (List.prefix_append _ _))
  | some row =>
    refine safe_thenRun (fun h reads => by cases reads) fun w'' rs db' later good' he' _ _ => ?_
    refine safe_attempt fun h found => safe_send fun u' hu' => ?_
    cases hu'
    exact lived_of_found good he head
      ((List.prefix_append _ _).trans (later.trans (List.prefix_append _ _))) rfl
      (houseCode_same he' found)

end Safe

theorem own_lodging {l : Label P} (own : Label.own P l) : (lodging P).Admits l := by
  cases l with
  | settle i lost => trivial
  | disturb db => exact absurd own id
  | arrive q =>
    intro w good
    have later : Lodgings P w.next := ⟨good.register, good.sessions⟩
    have known : ∀ u, (w.context q).user = some u → Lived w.next.log u :=
      fun u user => good.sessions q.sid u user
    have safe : (lodging P).Safe (w.context q) (OneRoof.route P (w.context q)) w.next := by
      by_cases house : (w.context q).req.route = .house
      · rw [OneRoof.route, house]
        exact house_safe known
      by_cases settings : (w.context q).req.route = .settings
      · rw [OneRoof.route, settings]
        exact settings_safe known
      · exact homely_safe (route_homely P _ house settings) known later
    exact ⟨later, List.prefix_rfl, safe.recover later fun w' le _ =>
      safe_send fun u user => (known u user).later le⟩

theorem run_lodging {ls : List (Label P)} (own : ∀ l ∈ ls, Label.own P l) :
    (lodging P).Holds (run (server P) ls (startUp P)) := by
  have start : (lodging P).Holds (startUp P) :=
    Discipline.idle_holds ⟨rfl, fun _ _ signedIn => by cases signedIn⟩
  exact (Discipline.run_holds ls (fun l mem => own_lodging (own l mem)) _ start).1

/-- The data of a house is read for a session whose user had lived there. -/
theorem read_by_resident {ls : List (Label P)} (own : ∀ l ∈ ls, Label.own P l)
    {front rest : List Event} {c : Ctx} {s : Stmt} {r : s.Reply}
    (logged : (run (server P) ls (startUp P)).world.log = front ++ .completed c s r :: rest)
    {house : Int} (reads : s.readsHouse = some house) :
    ∃ u, c.user = some u ∧ u.houseID = some house ∧ Lived front u := by
  obtain ⟨before, l, after, rfl, rfl, ⟨k, flies⟩, -⟩ := executedIn_of_logged own rfl logged
  have waits := (run_lodging fun l mem => own l (List.mem_append_left _ mem)).2 _ flies
  exact waits.1 house reads

/-- Whenever the members, the groups or the details of a house have been read for a request,
the user of its session was in the register of that house at some time before. -/
theorem houses_read_by_residents (P : Platform) (ls : List (Label P))
    (own : ∀ l ∈ ls, Label.own P l) (front : List Event) (c : Ctx) (s : Stmt) (r : s.Reply)
    (rest : List Event) (logged : (run (server P) ls (startUp P)).world.log =
      front ++ .completed c s r :: rest) (house : Int) (reads : s.readsHouse = some house) :
    ∃ u n earlier, c.user = some u ∧ u.user_id = some n ∧ earlier <+: front ∧
      ∃ e ∈ residences earlier, e.house = house ∧ e.user = n := by
  obtain ⟨u, user, remembers, lived⟩ := read_by_resident own logged reads
  obtain ⟨n, earlier, id, le, resides⟩ := lived house remembers
  exact ⟨u, n, earlier, user, id, le, resides⟩

/-- The house whose data an event has read. -/
def Event.readsHouse : Event → Option Int
  | .completed _ s _ => s.readsHouse
  | _ => none

/-- Ann looks where she lives, and with whom. -/
def annLooks : List (Label samplePlatform) :=
  annMoves ++ [.arrive { sid := 0, route := .house }, .settle 0 false,
    .arrive { sid := 0, route := .getUsers }, .settle 0 false]

theorem houses_read_sample : ∃ front c s r rest,
    (run (server samplePlatform) annLooks (startUp samplePlatform)).world.log =
      front ++ .completed c s r :: rest ∧ s.readsHouse = some 1 ∧
    ∃ u n earlier, c.user = some u ∧ u.user_id = some n ∧ earlier <+: front ∧
      ∃ e ∈ residences earlier, e.house = 1 ∧ e.user = n := by
  have read : (run (server samplePlatform) annLooks (startUp samplePlatform)).world.log.any
      (fun e => decide (e.readsHouse = some 1)) = true := by decide +kernel
  obtain ⟨e, mem, reads⟩ := List.any_eq_true.mp read
  cases e with
  | completed c s r =>
    obtain ⟨front, rest, logged⟩ := List.append_of_mem mem
    have house : s.readsHouse = some 1 := of_decide_eq_true reads
    exact ⟨front, c, s, r, rest, logged, house, houses_read_by_residents samplePlatform annLooks
      (by decide) front c s r rest logged 1 house⟩
  | _ => simp [Event.readsHouse] at reads

end OneRoof
