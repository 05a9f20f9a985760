import OneRoof.Lib.Weights
import OneRoof.Runs

/-!
# How often a request is answered

Here a statement may be answered with anything, or fail, whatever the tables
hold; what counts is how often a handler ends its response. Some handlers do it
once in every pattern of outcomes, some leave it out in one of them, and one
calls it twice.
-/

namespace OneRoof

open Sql Async Async.Prog Prog

variable {P : Platform} {c : Ctx}

/-- One response: how often it was ended, what was gathered for it, and what the
statements are answered with from now on. -/
structure Desk where
  calls : Nat
  gathered : List JsVal
  replies : (s : Stmt) → Option s.Reply

def Desk.perform : Act → Desk → Bool × Desk
  | .send _ _, w => (decide (w.calls = 0), { w with calls := w.calls + 1 })
  | .compareSync _, w => (true, w)
  | .push entry total, w =>
    (decide (w.gathered.length + 1 = total), { w with gathered := w.gathered ++ [entry] })
  | .sendGathered _, w => (decide (w.calls = 0), { w with calls := w.calls + 1 })

variable (P) in
/-- The handlers at work on one request, with arbitrary outcomes. -/
def desk : Machine Stmt Stmt.Reply Act Ctx Desk Ctx ((s : Stmt) → Option s.Reply) where
  exec _ s w := (w.replies s).map fun r => (r, w)
  refuse _ _ w := w
  perform _ := Desk.perform
  arrive c w := (c, handler P c, w)
  disturb replies w := { w with replies := replies }

abbrev DeskConfig := Async.Config Stmt Stmt.Reply Act Ctx Desk

abbrev DeskLabel := Async.Label Ctx ((s : Stmt) → Option s.Reply)

def Desk.fresh : DeskConfig := ⟨⟨0, [], fun _ => none⟩, []⟩

/-- Settlements in any order with any outcomes. -/
def AnyOutcome (ls : List DeskLabel) : Prop := ∀ l ∈ ls, ∀ c, l ≠ .arrive c

/-- Once all its statements have settled the response has been ended exactly once,
whatever their outcomes were. -/
def AnsweredOnce (P : Platform) (c : Ctx) : Prop :=
  ∀ ls, AnyOutcome ls → (run (desk P) (.arrive c :: ls) Desk.fresh).pending = [] →
    (run (desk P) (.arrive c :: ls) Desk.fresh).world.calls = 1

/-- The routes that call functions `bankData` does not have. -/
def Route.isLeftOver : Route → Bool
  | .accounts | .delete | .updateAccountName | .transactions => true
  | _ => false

/-- An email and a password are given. -/
structure Enters (q : Request) : Prop where
  email : (credential q "email").truthy = true
  password : (credential q "password").truthy = true

/-- The users a task list is asked for are an array that can be walked, with
somebody in it. -/
def AsksSomebody (q : Request) : Prop :=
  (q.body.get "users").toStr ≠ none ∧ ∃ items asked rest, q.body.get "users" = .arr items ∧
    items.mapM (taskArguments (q.body.get "status")) = some (asked :: rest)

/-- All owners of a new task can be read, and it is a chore. -/
def MakesChore (q : Request) : Prop :=
  (∃ items, (q.body.get "taskOwner").loop = some ⟨items, false⟩ ∧
    ∀ o ∈ items, o.prop "user_id" ≠ none) ∧
  (q.body.get "taskType").looseEq (.str "Chore") = some true

/-- The requests whose handler ends the response once in every pattern. -/
def Responds (q : Request) : Prop :=
  match q.route with
  | .upload | .signout | .uploads | .feed | .loadProfile | .facebook | .updateDispl
  | .createHouse | .updatePass | .viewTasks => True
  | .login => ¬ Enters q
  | .signup => ¬ (Enters q ∧
      (q.body.get "confirmPass").looseEq (q.body.get "password") = some true)
  | .facebookCallback grant => grant = none
  | .tasks => ¬ AsksSomebody q
  | .addTask => ¬ MakesChore q
  | .addComment => q.body.toStr = none
  | .deleteTask => (q.body.get "id").toStr = none
  | _ => False

theorem desk_counts : Counts Act.ends (desk P) Desk.calls where
  exec := by
    intro c s w r w' h
    obtain ⟨r', -, hw⟩ := Option.map_eq_some_iff.mp h
    cases hw
    rfl
  refuse _ _ _ := rfl
  disturb _ _ := rfl
  perform c a w := by cases a <;> rfl
  first := by
    intro c a w ends none
    cases a with
    | send answer user => exact decide_eq_true none
    | sendGathered user => exact decide_eq_true none
    | compareSync hash => cases ends
    | push entry total => cases ends

theorem once_of_makes (makes : (handler P c).Makes Act.ends 1) : AnsweredOnce P c := by
  intro ls closed settled
  have start : OnceIn Act.ends Desk.calls (step (desk P) (.arrive c) Desk.fresh) :=
    enter_onceIn desk_counts c (handler P c) Desk.fresh makes .nil rfl
  exact run_once desk_counts closed start settled

section Makes

variable {n : Nat} {h : Prog}

theorem makes_send (answer : Answer) (user : Option SessionUser) :
    (send answer user).Makes Act.ends 1 :=
  ⟨0, rfl, rfl⟩

theorem makes_sendCaught (answer : Answer) (user : Option SessionUser) (h : Prog) :
    ((send answer user).recover h).Makes Act.ends 1 :=
  ⟨0, rfl, rfl⟩

theorem makes_start {s : Stmt} {rest : Prog} (hr : rest.Makes Act.ends n) :
    (start s rest).Makes Act.ends n :=
  ⟨0, n, Nat.zero_add n, fun _ => rfl, hr⟩

theorem makes_query {s : Stmt} {k : Option s.Reply → Prog} (hk : ∀ r, (k r).Makes Act.ends n) :
    (query s k).Makes Act.ends n :=
  ⟨n, 0, rfl, hk, rfl⟩

theorem makes_thenCatch {α : Type} {f : α → Prog}
    (hf : ∀ r, ((f r).recover h).Makes Act.ends n) (hh : h.Makes Act.ends n) (o : Option α) :
    (thenCatch f h o).Makes Act.ends n := by
  cases o with
  | none => exact hh
  | some r => exact hf r

/-- What cannot be computed is left to the `catch`. -/
theorem makes_attempt {α : Type} {v : Option α} {f : α → Prog}
    (hf : ∀ a, v = some a → ((f a).recover h).Makes Act.ends n) (hh : h.Makes Act.ends n) :
    ((attempt v f).recover h).Makes Act.ends n := by
  cases v with
  | none => exact hh
  | some a => exact hf a rfl

theorem makes_startEach {f : JsVal → Option Stmt} {broken : Bool} {rest : Prog}
    (hr : (rest.recover h).Makes Act.ends n) (hh : h.Makes Act.ends n) (vs : List JsVal) :
    ((startEach f broken rest vs).recover h).Makes Act.ends n := by
  induction vs with
  | nil =>
    cases broken with
    | true => exact hh
    | false => exact hr
  | cons v vs ih =>
    simp only [startEach]
    cases f v with
    | none => exact hh
    | some s => exact makes_start ih

/-- A loop that throws never comes to what follows it. -/
theorem makes_startEach_throws {f : JsVal → Option Stmt} {broken : Bool} {rest : Prog}
    {vs : List JsVal} (throws : broken = true ∨ ∃ v ∈ vs, f v = none)
    (hh : h.Makes Act.ends n) : ((startEach f broken rest vs).recover h).Makes Act.ends n := by
  induction vs with
  | nil =>
    rcases throws with rfl | ⟨v, hv, -⟩
    · exact hh
    · cases hv
  | cons v vs ih =>
    simp only [startEach]
    cases hf : f v with
    | none => exact hh
    | some s =>
      refine makes_start (ih ?_)
      rcases throws with broken | ⟨v', hv', hn⟩
      · exact Or.inl broken
      · rcases List.mem_cons.mp hv' with rfl | hv'
        · rw [hf] at hn
          cases hn
        · exact Or.inr ⟨v', hv', hn⟩

end Makes

section Once

/-- What follows a loop stands in the place of its `done`. -/
theorem startEach_andThen (f : JsVal → Option Stmt) (broken : Bool) (rest next : Prog)
    (vs : List JsVal) : (startEach f broken rest vs).andThen next =
      startEach f broken (rest.andThen next) vs := by
  induction vs with
  | nil => cases broken <;> rfl
  | cons v vs ih =>
    simp only [startEach]
    cases f v with
    | none => rfl
    | some s => exact congrArg (start s) ih

theorem withCredentials_makes {verify : JsVal → JsVal → Prog}
    (refused : Enters c.req →
      ((verify (credential c.req "email") (credential c.req "password")).recover
        (send (.status 500 "Internal Server Error") c.user)).Makes Act.ends 1) :
    ((withCredentials c.req c.user verify).recover
      (send (.status 500 "Internal Server Error") c.user)).Makes Act.ends 1 := by
  unfold withCredentials
  split
  · rename_i given
    exact refused ⟨given.1, given.2⟩
  · exact makes_sendCaught _ _ _

theorem addTask_makes (bill : ¬ MakesChore c.req) :
    ((addTask c.req c.user).recover
      (send (.status 500 "Internal Server Error") c.user)).Makes Act.ends 1 := by
  refine makes_query (makes_thenCatch (fun _ => ?_) (makes_send _ _))
  unfold addTaskOwners
  cases loop : (c.req.body.get "taskOwner").loop with
  | none => exact makes_send _ _
  | some owners =>
    simp only [attempt, startEach_andThen]
    by_cases throws : owners.broken = true ∨ ∃ o ∈ owners.items, o.prop "user_id" = none
    · refine makes_startEach_throws (throws.imp_right ?_) (makes_send _ _)
      rintro ⟨o, ho, missing⟩
      exact ⟨o, ho, by simp [missing]⟩
    · refine makes_startEach (makes_attempt (fun chore hc => ?_) (makes_send _ _))
        (makes_send _ _) _
      cases chore with
      | true =>
        push Not at throws
        refine absurd ⟨⟨owners.items, ?_, throws.2⟩, hc⟩ bill
        obtain ⟨items, broken⟩ := owners
        rw [loop]
        simpa using throws.1
      | false =>
        exact makes_attempt (fun _ _ => makes_start (makes_sendCaught _ _ _)) (makes_send _ _)

theorem tasks_makes (nobody : ¬ AsksSomebody c.req) :
    ((tasks c.req c.user).recover
      (send (.status 500 "Internal Server Error") c.user)).Makes Act.ends 1 := by
  refine makes_attempt (fun text printed => ?_) (makes_send _ _)
  cases users : c.req.body.get "users" with
  | arr items =>
    dsimp only
    cases queries : items.mapM (taskArguments (c.req.body.get "status")) with
    | none =>
      exact makes_startEach_throws (Or.inl rfl) (makes_send _ _)
    | some asked =>
      cases asked with
      | nil => exact makes_sendCaught _ _ _
      | cons a rest => exact absurd ⟨by simp [printed], items, a, rest, users, queries⟩ nobody
  | _ => exact makes_send _ _

theorem makes_of_responds (responds : Responds c.req) :
    (handler P c).Makes Act.ends 1 := by
  have oops := makes_send (.status 500 "Internal Server Error") c.user
  simp only [handler, OneRoof.route]
  cases route : c.req.route with
  | upload =>
    refine makes_attempt (fun u _ => makes_attempt (fun filename _ => ?_) oops) oops
    dsimp only
    split
    · exact makes_start (makes_sendCaught _ _ _)
    · exact makes_sendCaught _ _ _
  | signout | feed | facebook => exact makes_sendCaught _ _ _
  | uploads => exact makes_attempt (fun _ _ => makes_sendCaught _ _ _) oops
  | loadProfile => exact makes_attempt (fun u _ => makes_sendCaught _ _ _) oops
  | updateDispl =>
    refine makes_attempt (fun u _ => makes_start (makes_query (makes_thenCatch (fun rows => ?_)
      (makes_send _ _)))) oops
    dsimp only
    split
    · exact makes_start (makes_sendCaught _ _ _)
    · exact makes_sendCaught _ _ _
  | createHouse =>
    exact makes_query (makes_thenCatch (fun rows => makes_attempt (fun u _ =>
      makes_start (makes_sendCaught _ _ _)) (makes_send _ _)) (makes_send _ _))
  | updatePass =>
    refine makes_attempt (fun u _ => makes_start (makes_query (makes_thenCatch (fun rows => ?_)
      (makes_send _ _)))) oops
    split
    · refine fun _ => makes_attempt (fun valid _ => ?_) (makes_send _ _)
      split
      · exact makes_attempt (fun _ _ => makes_start (makes_sendCaught _ _ _)) (makes_send _ _)
      · exact makes_sendCaught _ _ _
    · exact makes_sendCaught _ _ _
  | viewTasks =>
    exact makes_attempt (fun u _ => makes_attempt (fun _ _ => makes_attempt (fun _ _ =>
      makes_query (makes_thenCatch (fun _ => makes_sendCaught _ _ _) (makes_send _ _))) oops)
      oops) oops
  | login =>
    simp only [Responds, route] at responds
    exact withCredentials_makes fun enters => absurd enters responds
  | signup =>
    simp only [Responds, route] at responds
    refine withCredentials_makes fun enters => makes_attempt (fun same hs => ?_) oops
    cases same with
    | true => exact absurd ⟨enters, hs⟩ responds
    | false => exact makes_sendCaught _ _ _
  | facebookCallback grant =>
    simp only [Responds, route] at responds
    subst responds
    exact makes_sendCaught _ _ _
  | tasks =>
    simp only [Responds, route] at responds
    exact tasks_makes responds
  | addTask =>
    simp only [Responds, route] at responds
    exact addTask_makes responds
  | addComment =>
    simp only [Responds, route] at responds
    simp only [addComment, responds]
    exact oops
  | deleteTask =>
    simp only [Responds, route] at responds
    simp only [deleteTask, responds]
    exact oops
  | _ => simp only [Responds, route] at responds

end Once

section Zero

/-- A program that only issues statements and, when they are lost, does nothing. -/
def Mute : Prog → Prop
  | .done => True
  | .throw => True
  | .issue _ k rest => Mute (k none) ∧ Mute rest
  | .act _ _ => False

def MuteConfig (σ : DeskConfig) : Prop := ∀ p ∈ σ.pending, Mute (p.k none)

theorem enter_mute {prog : Prog} (mute : Mute prog) (σ : DeskConfig) (others : MuteConfig σ) :
    (enter (desk P) c prog σ).world = σ.world ∧ MuteConfig (enter (desk P) c prog σ) := by
  induction prog generalizing σ with
  | done => exact ⟨rfl, others⟩
  | throw => exact ⟨rfl, others⟩
  | issue s k rest _ ih =>
    refine ih mute.2 ⟨σ.world, σ.pending ++ [⟨c, s, k⟩]⟩ fun p hp => ?_
    rcases List.mem_append.mp hp with old | new
    · exact others p old
    · rw [List.mem_singleton.mp new]
      exact mute.1
  | act a k _ => exact absurd mute id

/-- When everything that is left gets lost, nothing more happens. -/
theorem mute_run (σ : DeskConfig) (mute : MuteConfig σ) :
    ∃ ls, AnyOutcome ls ∧ (run (desk P) ls σ).pending = [] ∧
      (run (desk P) ls σ).world = σ.world := by
  obtain ⟨n, settled⟩ := exists_quiescent (desk P) σ
  have loses : ∀ l ∈ List.replicate n (.settle 0 true : DeskLabel), l = .settle 0 true :=
    fun l hl => (List.mem_replicate.mp hl).2
  refine ⟨_, fun l hl c h => ?_, settled, ?_⟩
  · rw [loses l hl] at h
    cases h
  · refine (run_invariant (M := desk P) (fun _ l => l = .settle 0 true)
      (fun σ' => σ'.world = σ.world ∧ MuteConfig σ') (fun σ' l hl h => ?_)
      (along_of_forall _ loses σ) ⟨rfl, mute⟩).1
    subst hl
    rcases settle_cases (desk P) 0 true σ' with same | ⟨p, hp, hs⟩
    · rw [step, same]
      exact h
    · obtain ⟨kept, mute'⟩ := enter_mute (P := P) (c := p.ctx)
        (h.2 p (List.mem_of_getElem? hp)) ⟨σ'.world, σ'.pending.eraseIdx 0⟩
        fun q hq => h.2 q (List.mem_of_mem_eraseIdx hq)
      rw [step, hs]
      exact ⟨kept.trans h.1, mute'⟩

/-- A run that leaves only mute statements and a wrong number of calls. -/
theorem not_once (ls : List DeskLabel) (closed : AnyOutcome ls)
    (mute : MuteConfig (run (desk P) (.arrive c :: ls) Desk.fresh))
    (wrong : (run (desk P) (.arrive c :: ls) Desk.fresh).world.calls ≠ 1) : ¬ AnsweredOnce P c := by
  intro once
  obtain ⟨ls', closed', settled, same⟩ := mute_run (P := P) _ mute
  rw [← run_append, List.cons_append] at settled same
  refine wrong ?_
  rw [← same]
  exact once (ls ++ ls') (fun l hl => (List.mem_append.mp hl).elim (closed l) (closed' l)) settled

theorem not_once_of_mute (mute : Mute (handler P c)) : ¬ AnsweredOnce P c := by
  obtain ⟨same, others⟩ := enter_mute (P := P) (c := c) mute Desk.fresh
    fun _ h => absurd h List.not_mem_nil
  refine not_once [] (fun _ h => absurd h List.not_mem_nil) others ?_
  change (enter (desk P) c (handler P c) Desk.fresh).world.calls ≠ 1
  rw [same]
  exact Nat.zero_ne_one

/-- Every look-up finds somebody, and every insert of a task or a chore succeeds. -/
def generous : (s : Stmt) → Option s.Reply
  | .getUser _ => some [blank]
  | .createTask _ => some ⟨1, 0⟩
  | .updateChoreTable _ _ => some ⟨1, 0⟩
  | _ => none

theorem updateColumn_silent (stmt : Option Int → Stmt) {u : SessionUser} (user : c.user = some u)
    (hroute : OneRoof.route P c = updateColumn c.user stmt) : ¬ AnsweredOnce P c := by
  let copy : Pending Stmt Stmt.Reply Act Ctx := ⟨c, .getUser u.email, fun _ => .done⟩
  let write : Pending Stmt Stmt.Reply Act Ctx := ⟨c, stmt u.user_id, fun _ => .done⟩
  have hrun : run (desk P) (.arrive c :: [.disturb generous, .settle 1 false]) Desk.fresh =
      ⟨⟨0, [], generous⟩, [copy, write]⟩ := by
    rw [run_cons]
    simp only [step, arrive, desk, handler, hroute, updateColumn, withUser, user, attempt]
    rfl
  refine not_once [.disturb generous, .settle 1 false] (by simp [AnyOutcome]) ?_ ?_
  · rw [hrun]
    intro p hp
    simp only [List.mem_cons, List.not_mem_nil, or_false] at hp
    rcases hp with rfl | rfl <;> trivial
  · rw [hrun]
    exact Nat.zero_ne_one

/-- A loop that does not throw leaves its statements in flight and goes on. -/
theorem enter_startEach (rest h : Prog) {f : JsVal → Option Stmt} {vs : List JsVal}
    (all : ∀ v ∈ vs, f v ≠ none) (σ : DeskConfig) (others : MuteConfig σ) :
    ∃ ps, MuteConfig ⟨σ.world, ps⟩ ∧
      enter (desk P) c ((startEach f false rest vs).recover h) σ =
        enter (desk P) c (rest.recover h) ⟨σ.world, ps⟩ := by
  induction vs generalizing σ with
  | nil => exact ⟨σ.pending, others, rfl⟩
  | cons v vs ih =>
    obtain ⟨s, hs⟩ := Option.ne_none_iff_exists'.mp (all v List.mem_cons_self)
    simp only [startEach, hs, attempt]
    refine ih (fun v' hv' => all v' (List.mem_cons_of_mem v hv'))
      ⟨σ.world, σ.pending ++ [⟨c, s, fun _ => .done⟩]⟩ fun p hp => ?_
    rcases List.mem_append.mp hp with old | new
    · exact others p old
    · rw [List.mem_singleton.mp new]
      trivial

theorem addTask_twice {u : SessionUser} (user : c.user = some u) (route : c.req.route = .addTask)
    (chore : MakesChore c.req) : ¬ AnsweredOnce P c := by
  obtain ⟨⟨items, loop, all⟩, type⟩ := chore
  let link : JsVal → Option Stmt := fun o => do
    let taskOwnerID ← o.prop "user_id"
    let u ← c.user
    return Stmt.updateUserTaskTable (guid c.req.draws) taskOwnerID u.user_id
  have owned : ∀ o ∈ items, link o ≠ none := by
    intro o ho
    obtain ⟨id, hid⟩ := Option.ne_none_iff_exists'.mp (all o ho)
    simp [link, hid, user]
  let detail : Stmt := .updateChoreTable (guid c.req.draws) (c.req.body.get "priority")
  let caught := send (.status 404 "Something's fucky") c.user
  let again : Option detail.Reply → Prog :=
    thenCatch (fun _ => send (.json .undefined) c.user) .done
  have owners : (addTaskOwners c.req c.user (guid c.req.draws)).andThen
      (addTaskDetail c.req c.user (guid c.req.draws)) =
      startEach link false (addTaskDetail c.req c.user (guid c.req.draws)) items := by
    simp only [addTaskOwners, loop, attempt, startEach_andThen]
    rfl
  obtain ⟨ps, mute, entered⟩ := enter_startEach (P := P) (c := c)
    (addTaskDetail c.req c.user (guid c.req.draws)) caught owned ⟨⟨0, [], generous⟩, []⟩
    fun _ h => absurd h List.not_mem_nil
  have started : run (desk P) (.arrive c :: [.disturb generous, .settle 0 false]) Desk.fresh =
      ⟨⟨1, [], generous⟩, ps ++ [⟨c, detail, again⟩]⟩ := by
    have first : run (desk P) (.arrive c :: [.disturb generous, .settle 0 false]) Desk.fresh =
        enter (desk P) c ((startEach link false
          (addTaskDetail c.req c.user (guid c.req.draws)) items).recover caught)
          ⟨⟨0, [], generous⟩, []⟩ := by
      rw [run_cons]
      simp only [step, arrive, desk, handler, OneRoof.route, route]
      exact congrArg (fun prog => enter (desk P) c (prog.recover caught)
        ⟨⟨0, [], generous⟩, []⟩) owners
    rw [first, entered]
    simp only [addTaskDetail, type, attempt, if_true]
    rfl
  have second : run (desk P) (.arrive c :: [.disturb generous, .settle 0 false,
      .settle ps.length false]) Desk.fresh = ⟨⟨2, [], generous⟩, ps⟩ := by
    have split : (.arrive c :: [.disturb generous, .settle 0 false, .settle ps.length false] :
        List DeskLabel) = (.arrive c :: [.disturb generous, .settle 0 false]) ++
          [.settle ps.length false] := rfl
    have waits : (ps ++ [⟨c, detail, again⟩])[ps.length]? = some ⟨c, detail, again⟩ := by simp
    have left : (ps ++ [(⟨c, detail, again⟩ : Pending Stmt Stmt.Reply Act Ctx)]).eraseIdx
        ps.length = ps := by
      rw [List.eraseIdx_append_of_length_le (Nat.le_refl _)]
      simp
    rw [split, run_append, started, run_cons, run_nil, step]
    simp only [settle, waits, left]
    rfl
  refine not_once [.disturb generous, .settle 0 false, .settle ps.length false]
    (by simp [AnyOutcome]) ?_ ?_
  · rw [second]
    exact mute
  · rw [second]
    exact Nat.succ_ne_self 1

theorem tasks_silent (route : c.req.route = .tasks) (asks : AsksSomebody c.req) :
    Mute (handler P c) := by
  obtain ⟨printed, items, asked, rest, users, queries⟩ := asks
  obtain ⟨text, printed⟩ := Option.ne_none_iff_exists'.mp printed
  have gathers : ∀ total qs, Mute ((gatherTasks c.user total qs).recover
      (send (.status 500 "Internal Server Error") c.user)) := by
    intro total qs
    induction qs with
    | nil => trivial
    | cons a qs ih => exact ⟨trivial, ih⟩
  simp only [handler, OneRoof.route, route, tasks, printed, attempt]
  rw [users]
  simp only [queries]
  exact gathers _ _

theorem not_once_of_not_responds {u : SessionUser} (user : c.user = some u)
    (kept : c.req.route.isLeftOver = false) (silent : ¬ Responds c.req) : ¬ AnsweredOnce P c := by
  cases route : c.req.route with
  | settings | house | houseDetails | getGroups | leaveHouse =>
    refine not_once_of_mute ?_
    simp only [handler, OneRoof.route, route, settings, house, houseDetails, getGroups, leaveHouse,
      withUser, user, attempt]
    exact ⟨trivial, trivial⟩
  | profile | viewUserGroups | getUserGroups =>
    refine not_once_of_mute ?_
    simp only [handler, OneRoof.route, route, profile, viewUserGroups, getUserGroups,
      withUser, user, attempt]
    exact ⟨trivial, trivial, trivial⟩
  | getUsers =>
    refine not_once_of_mute ?_
    simp only [handler, OneRoof.route, route, getUsers, withUser, user, attempt]
    cases u.houseID with
    | none => trivial
    | some h => exact ⟨trivial, trivial⟩
  | joinGroup =>
    refine not_once_of_mute ?_
    simp only [handler, OneRoof.route, route, joinGroup, withUser, user, attempt]
    exact ⟨trivial, trivial⟩
  | createGroup | joinHouse | deleteComment | updateTask =>
    refine not_once_of_mute ?_
    simp only [handler, OneRoof.route, route]
    exact ⟨trivial, trivial⟩
  | uploadProfile =>
    refine not_once_of_mute ?_
    simp only [handler, OneRoof.route, route]
    trivial
  | getComment =>
    refine not_once_of_mute ?_
    simp only [handler, OneRoof.route, route, getComment]
    split
    · exact ⟨trivial, trivial⟩
    · trivial
  | updatePaymentMethod =>
    exact updateColumn_silent (.updateUserPaymentMethod (c.req.body.get "newMethod")) user
      (by simp only [OneRoof.route, route]; rfl)
  | updatePaymentUser =>
    exact updateColumn_silent (.updateUserPaymentUsername (c.req.body.get "newUsername")) user
      (by simp only [OneRoof.route, route]; rfl)
  | updateMobile =>
    exact updateColumn_silent (.updateMobile (c.req.body.get "newMobile")) user
      (by simp only [OneRoof.route, route]; rfl)
  | login =>
    simp only [Responds, route, not_not] at silent
    refine not_once_of_mute ?_
    simp only [handler, OneRoof.route, route, login, withCredentials, silent.email,
      silent.password, and_self, if_true]
    exact ⟨trivial, trivial, trivial⟩
  | signup =>
    simp only [Responds, route, not_not] at silent
    refine not_once_of_mute ?_
    simp only [handler, OneRoof.route, route, signup, withCredentials, silent.1.email,
      silent.1.password, and_self, if_true, localSignup, silent.2, attempt]
    exact ⟨trivial, trivial, trivial⟩
  | facebookCallback grant =>
    simp only [Responds, route] at silent
    obtain ⟨g, rfl⟩ := Option.ne_none_iff_exists'.mp silent
    refine not_once_of_mute ?_
    simp only [handler, OneRoof.route, route]
    exact ⟨trivial, trivial, trivial⟩
  | tasks =>
    simp only [Responds, route, not_not] at silent
    exact not_once_of_mute (tasks_silent route silent)
  | addTask =>
    simp only [Responds, route, not_not] at silent
    exact addTask_twice user route silent
  | addComment =>
    simp only [Responds, route] at silent
    obtain ⟨text, printed⟩ := Option.ne_none_iff_exists'.mp silent
    refine not_once_of_mute ?_
    simp only [handler, OneRoof.route, route, addComment, printed, withUser, user, attempt]
    exact ⟨trivial, trivial⟩
  | deleteTask =>
    simp only [Responds, route] at silent
    obtain ⟨text, printed⟩ := Option.ne_none_iff_exists'.mp silent
    refine not_once_of_mute ?_
    simp only [handler, OneRoof.route, route, deleteTask, printed, attempt]
    exact ⟨trivial, trivial⟩
  | accounts | delete | updateAccountName | transactions =>
    simp [route, Route.isLeftOver] at kept
  | _ => simp [Responds, route] at silent

end Zero

section Served

/-- The desk has seen what the server has seen of a request. -/
structure Follows (rid : Nat) (σ : Config P) (τ : DeskConfig) : Prop where
  pending : τ.pending = σ.pending
  own : ∀ p ∈ σ.pending, p.ctx.rid = rid
  gathered : τ.world.gathered = σ.world.gathered rid
  answers : (σ.world.log.filter (Event.answers rid)).length = min τ.world.calls 1

variable {rid : Nat} {σ : Config P} {τ : DeskConfig}

theorem Follows.open_iff (follows : Follows rid σ τ) :
    σ.world.log.any (Event.answers rid) = !decide (τ.world.calls = 0) := by
  have count := follows.answers
  by_cases none : τ.world.calls = 0
  · rw [none, Nat.zero_min, List.length_eq_zero_iff, List.filter_eq_nil_iff] at count
    simpa [none, List.any_eq_false] using count
  · have some : 0 < (σ.world.log.filter (Event.answers rid)).length := by omega
    obtain ⟨e, he⟩ := List.exists_mem_of_length_pos some
    obtain ⟨mem, hit⟩ := List.mem_filter.mp he
    simp only [none, decide_false, Bool.not_false]
    exact List.any_eq_true.mpr ⟨e, mem, hit⟩

theorem Follows.answers_later (follows : Follows rid σ τ) {e : Event}
    (other : Event.answers rid e = false) :
    ((σ.world.log ++ [e]).filter (Event.answers rid)).length = min τ.world.calls 1 := by
  rw [List.filter_append, List.filter_singleton, other]
  simpa using follows.answers

theorem Follows.answer (follows : Follows rid σ τ) {c : Ctx} (hc : c.rid = rid) (answer : Answer)
    (user : Option SessionUser) :
    (σ.world.answer c answer user).1 = decide (τ.world.calls = 0) ∧
    Follows rid ⟨(σ.world.answer c answer user).2, σ.pending⟩
      ⟨{ τ.world with calls := τ.world.calls + 1 }, τ.pending⟩ := by
  have count := follows.answers
  have ended := follows.open_iff
  unfold World.answer
  rw [hc, ended]
  by_cases none : τ.world.calls = 0
  · simp only [none, decide_true, Bool.not_true, Bool.false_eq_true, if_false, true_and]
    refine ⟨follows.pending, follows.own, follows.gathered, ?_⟩
    rw [none] at count
    simp only [List.filter_append, List.length_append, count]
    simp [Event.answers, hc]
  · simp only [none, decide_false, Bool.not_false, if_true, true_and]
    refine ⟨follows.pending, follows.own, follows.gathered, ?_⟩
    simp only [count]
    omega

theorem enter_follows (prog : Prog) {c : Ctx} (hc : c.rid = rid) (follows : Follows rid σ τ) :
    Follows rid (enter (server P) c prog σ) (enter (desk P) c prog τ) := by
  induction prog generalizing σ τ with
  | done => exact follows
  | throw => exact follows
  | issue s k rest _ ih =>
    refine ih (σ := ⟨σ.world, σ.pending ++ [⟨c, s, k⟩]⟩) (τ := ⟨τ.world, τ.pending ++ [⟨c, s, k⟩]⟩)
      ⟨by rw [follows.pending], fun p hp => ?_, follows.gathered, follows.answers⟩
    rcases List.mem_append.mp hp with old | new
    · exact follows.own p old
    · rw [List.mem_singleton.mp new, hc]
  | act a k ih =>
    have next : ∀ w b w' b', b = b' → Follows rid ⟨w, σ.pending⟩ ⟨w', τ.pending⟩ →
        Follows rid (enter (server P) c (k b) ⟨w, σ.pending⟩)
          (enter (desk P) c (k b') ⟨w', τ.pending⟩) := by
      rintro w b w' _ rfl h
      exact ih b h
    cases a with
    | send answer user =>
      obtain ⟨same, after⟩ := follows.answer hc answer user
      exact next _ _ _ _ same after
    | sendGathered user =>
      obtain ⟨same, after⟩ := follows.answer hc (.json (.arr (σ.world.gathered c.rid))) user
      exact next _ _ _ _ same after
    | compareSync hash =>
      refine next _ _ _ _ rfl ⟨follows.pending, follows.own, follows.gathered, ?_⟩
      exact follows.answers_later (by simp [Event.answers])
    | push entry total =>
      refine next _ _ _ _ ?_ ⟨follows.pending, follows.own, ?_, follows.answers⟩
      · simp only [server, World.perform, desk, Desk.perform, hc, follows.gathered]
      · simp [server, World.perform, desk, Desk.perform, hc, follows.gathered]

/-- What the tables of a state would reply. -/
def repliesOf (db : Database P.collate) : (s : Stmt) → Option s.Reply :=
  fun s => (exec P.collate s db).map Prod.fst

/-- A settlement at the server is one at the desk, with the reply the tables give. -/
theorem settle_follows (follows : Follows rid σ τ) (i : Nat) (lost : Bool) :
    Follows rid (settle (server P) i lost σ)
      (settle (desk P) i lost ⟨{ τ.world with replies := repliesOf σ.world.db }, τ.pending⟩) := by
  cases hp : σ.pending[i]? with
  | none =>
    simp only [settle, follows.pending, hp]
    exact ⟨rfl, follows.own, follows.gathered, follows.answers⟩
  | some p =>
    have hc := follows.own p (List.mem_of_getElem? hp)
    have others : ∀ q ∈ σ.pending.eraseIdx i, q.ctx.rid = rid :=
      fun q hq => follows.own q (List.mem_of_mem_eraseIdx hq)
    have failed : Follows rid (enter (server P) p.ctx (p.k none)
          ⟨σ.world.fail p.ctx p.stmt, σ.pending.eraseIdx i⟩)
        (enter (desk P) p.ctx (p.k none)
          ⟨{ τ.world with replies := repliesOf σ.world.db }, σ.pending.eraseIdx i⟩) :=
      enter_follows _ hc ⟨rfl, others, follows.gathered, follows.answers_later rfl⟩
    simp only [settle, follows.pending, hp]
    cases lost with
    | true => exact failed
    | false =>
      simp only [Bool.false_eq_true, if_false, server, desk, repliesOf]
      cases ho : exec P.collate p.stmt σ.world.db with
      | none => exact failed
      | some rd =>
        exact enter_follows (p.k (some rd.1)) hc
          (σ := ⟨σ.world.complete p.ctx p.stmt rd.1 rd.2, σ.pending.eraseIdx i⟩)
          ⟨rfl, others, follows.gathered, follows.answers_later rfl⟩

/-- Every run of the server on one request has its run at the desk. -/
theorem run_follows {ls : List (Label P)} (closed : ∀ l ∈ ls, ∀ q, l ≠ .arrive q)
    (follows : Follows rid σ τ) : ∃ ls', AnyOutcome ls' ∧
      Follows rid (run (server P) ls σ) (run (desk P) ls' τ) := by
  induction ls generalizing σ τ with
  | nil => exact ⟨[], fun _ h => absurd h List.not_mem_nil, follows⟩
  | cons l ls ih =>
    have rest := fun l' hl => closed l' (List.mem_cons_of_mem l hl)
    cases l with
    | arrive q => exact absurd rfl (closed _ List.mem_cons_self q)
    | disturb db =>
      exact ih rest (σ := ⟨{ σ.world with db := db }, σ.pending⟩)
        ⟨follows.pending, follows.own, follows.gathered, follows.answers⟩
    | settle i lost =>
      obtain ⟨ls', closed', after⟩ := ih rest (settle_follows follows i lost)
      refine ⟨.disturb (repliesOf σ.world.db) :: .settle i lost :: ls', fun l hl c h => ?_, after⟩
      subst h
      rcases List.mem_cons.mp hl with h | hl
      · cases h
      rcases List.mem_cons.mp hl with h | hl
      · cases h
      · exact closed' _ hl c rfl

/-- A request that is always answered once is answered once by the server, with
everybody else changing the tables meanwhile. -/
theorem served_once {w : World P} {q : Request} (fresh : Fresh ⟨w, []⟩)
    (once : AnsweredOnce P (w.context q)) {ls : List (Label P)}
    (closed : ∀ l ∈ ls, ∀ q, l ≠ .arrive q)
    (settled : (run (server P) (.arrive q :: ls) ⟨w, []⟩).pending = []) :
    ((run (server P) (.arrive q :: ls) ⟨w, []⟩).world.log.filter
      (Event.answers w.nextReq)).length = 1 := by
  have unanswered : (w.log.filter (Event.answers w.nextReq)).length = 0 := by
    have := fresh.answered (Nat.le_refl w.nextReq)
    rw [List.length_eq_zero_iff, List.filter_eq_nil_iff]
    simpa [List.any_eq_false] using this
  have start : Follows w.nextReq (⟨w.next, []⟩ : Config P) Desk.fresh :=
    ⟨rfl, fun _ h => absurd h List.not_mem_nil,
      (fresh.gathered w.nextReq (Nat.le_refl _)).symm, unanswered⟩
  have entered := enter_follows (handler P (w.context q)) (c := w.context q) rfl start
  obtain ⟨ls', closed', follows⟩ := run_follows closed entered
  have idle : (run (desk P) (.arrive (w.context q) :: ls') Desk.fresh).pending = [] :=
    follows.pending.trans settled
  have calls := once ls' closed' idle
  rw [run_cons, arrive_eq]
  refine follows.answers.trans ?_
  change min (run (desk P) (.arrive (w.context q) :: ls') Desk.fresh).world.calls 1 = 1
  rw [calls]
  rfl

end Served

end OneRoof
