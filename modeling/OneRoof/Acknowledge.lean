import OneRoof.Safety

/-!
# Answers and the statements behind them

Some handlers wait for their statement before they answer, some only start it.
While a request is served everybody else may change the tables between any two
of its steps, and its statements settle in any order and fail at will. A success
answer is backed by completed statements in all of these runs exactly for the
handlers that wait, and for the requests that are never answered with success.
-/

namespace OneRoof

open Sql Async Async.Prog Prog

variable {P : Platform}

def Route.writes : Route → Bool
  | .upload | .updateDispl | .updatePass | .createHouse | .addTask | .addComment
  | .deleteComment | .deleteTask | .leaveHouse | .signup => true
  | _ => false

/-- If a request has been answered with success, none of its statements is in
flight and none has failed. -/
def Backed (rid : Nat) (σ : Config P) : Prop :=
  ∀ c answer user, .answered c answer user ∈ σ.world.log → c.rid = rid →
    answer.success = true →
    (∀ p ∈ σ.pending, p.ctx.rid ≠ rid) ∧ ∀ c' s, .failed c' s ∈ σ.world.log → c'.rid ≠ rid

/-- Settlements of the request's own statements, and what others do meanwhile. -/
def Open (ls : List (Label P)) : Prop :=
  ∀ l ∈ ls, (∃ i lost, l = .settle i lost) ∨ ∃ db, l = .disturb db

/-- The success answer of a request is backed in every state of every run. -/
def AckBacked (P : Platform) (q : Request) (user : Option SessionUser) : Prop :=
  ∀ (w : World P) ls, Fresh ⟨w, []⟩ → w.store q.sid = user → Open ls →
    Backed w.nextReq (run (server P) (.arrive q :: ls) ⟨w, []⟩)

/-- Some database answers the look-up of `v` with `row` first. -/
def Finds (P : Platform) (v : JsVal) (row : Row UserCol) : Prop :=
  ∃ db db' rows, exec P.collate (.getUser v) db = some (rows, db') ∧ rows.head? = some row

/-- Some database knows nobody under `v`. -/
def Misses (P : Platform) (v : JsVal) : Prop :=
  ∃ db db', exec P.collate (.getUser v) db = some (([] : List (Row UserCol)), db')

/-- Some database takes the statement. -/
def Completable (P : Platform) (s : Stmt) : Prop := ∃ db x, exec P.collate s db = some x

/-- The owner loop of `addTask` and what follows it reach the answer. -/
structure TaskAnswered (q : Request) (user : Option SessionUser) : Prop where
  owners : ∃ items, (q.body.get "taskOwner").loop = some ⟨items, false⟩ ∧
    ∀ o ∈ items, o.prop "user_id" ≠ none ∧ user ≠ none
  detail : ∃ chore, (q.body.get "taskType").looseEq (.str "Chore") = some chore ∧
    (chore = false → (q.body.get "amount").parseInt ≠ none)

/-- The sign-up form is filled in and can be stored and found again. -/
structure SignsUp (P : Platform) (q : Request) : Prop where
  email : (credential q "email").truthy = true
  password : (credential q "password").truthy = true
  confirmed : (q.body.get "confirmPass").looseEq (q.body.get "password") = some true
  free : Misses P (credential q "email")
  stored : ∃ hash, createHash P q (credential q "password") = some hash ∧
    (printable (signupUser q (credential q "email") hash)).isSome ∧
    Completable P (.createUser (newLocalUser (signupUser q (credential q "email") hash)))
  named : (q.body.get "displayName").toStr ≠ none
  plain : q.body.hasOwn "hasOwnProperty" = false
  found : ∃ row, Finds P (credential q "email") row

/-- The request can be answered with success before its statements are through. -/
def AnswersEarly (P : Platform) (q : Request) (user : Option SessionUser) : Prop :=
  match q.route with
  | .upload => user ≠ none ∧ q.file ≠ none ∧ q.renamed = true
  | .updateDispl => ∃ u row, user = some u ∧ Finds P u.email row
  | .updatePass => (q.body.get "newPass").toStr ≠ none ∧ ∃ u row, user = some u ∧
      Finds P u.email row ∧ isValidPassword P (row .hash_pass) (q.body.get "oldPass") = some true
  | .createHouse => user ≠ none ∧
      Completable P (.createHouse (q.body.get "setHouseName") 100 (houseCode q.draws))
  | .addTask => Completable P (.createTask (newTask q)) ∧ TaskAnswered q user
  | .signup => SignsUp P q
  | _ => False

/-- No success answer to a request is given. -/
def refuses (P : Platform) (rid : Nat) : Discipline (server P) where
  Good w := ∀ c answer user, .answered c answer user ∈ w.log → c.rid = rid →
    answer.success = false
  Le _ _ := True
  Allowed _ _ _ := True
  Permit _ a _ := match a with
    | .send answer _ => answer.success = false
    | .sendGathered _ => False
    | _ => True
  refl _ := trivial
  trans _ _ := trivial
  mono _ h := h
  exec_good := by
    intro c s w r w' good _ he
    obtain ⟨⟨r', db⟩, -, hw⟩ := Option.map_eq_some_iff.mp he
    cases hw
    refine ⟨fun c' a u mem => ?_, trivial⟩
    rcases List.mem_append.mp mem with old | new
    · exact good c' a u old
    · cases List.mem_singleton.mp new
  refuse_good := by
    intro c s w good
    refine ⟨fun c' a u mem => ?_, trivial⟩
    rcases List.mem_append.mp mem with old | new
    · exact good c' a u old
    · cases List.mem_singleton.mp new
  perform_good := by
    intro c a w good permit
    refine ⟨?_, trivial⟩
    cases a with
    | send answer user =>
      intro c' a' u' mem hc
      simp only [server, World.perform, World.answer] at mem
      split at mem
      · exact good c' a' u' mem hc
      · rcases List.mem_append.mp mem with old | new
        · exact good c' a' u' old hc
        · cases List.mem_singleton.mp new
          exact permit
    | sendGathered user => exact absurd permit id
    | compareSync hash =>
      intro c' a' u' mem hc
      rcases List.mem_append.mp mem with old | new
      · exact good c' a' u' old hc
      · cases List.mem_singleton.mp new
    | push entry total => exact good

section Refused

variable {q : Request} {w : World P}

theorem refuses_start (fresh : Fresh ⟨w, []⟩) : (refuses P w.nextReq).Good w.next := by
  intro c answer user mem hc
  have old := fresh.logged _ mem
  simp only [Event.ctx] at old
  omega

/-- A request whose handler gives no success answer. -/
theorem backed_of_refused (fresh : Fresh ⟨w, []⟩) {ls : List (Label P)} (opens : Open ls)
    (safe : (refuses P w.nextReq).Safe (w.context q) (handler P (w.context q)) w.next) :
    Backed w.nextReq (run (server P) (.arrive q :: ls) ⟨w, []⟩) := by
  have start := Discipline.enter_holds _ (handler P (w.context q)) ⟨w.next, []⟩
    (Discipline.idle_holds (refuses_start fresh)) safe
  have holds := Discipline.run_holds ls (fun l hl => by
    rcases opens l hl with ⟨i, lost, rfl⟩ | ⟨db, rfl⟩
    · trivial
    · exact fun w good => ⟨good, trivial⟩) _ start.1
  intro c answer user mem hc success
  have refused : answer.success = false := holds.1.1 c answer user mem hc
  rw [refused] at success
  cases success

variable {c : Ctx} {rid : Nat}

theorem upload_refused (route : c.req.route = .upload) (late : ¬ AnswersEarly P c.req c.user) :
    (refuses P rid).Safe c (OneRoof.route P c) w := by
  simp only [AnswersEarly, route] at late
  simp only [OneRoof.route, route]
  refine safe_withUser fun u hu => safe_attempt fun filename hf => ?_
  by_cases renamed : c.req.renamed = true
  · exact absurd ⟨by simp [hu], by simp [hf], renamed⟩ late
  · simp only [renamed]
    exact safe_send rfl

theorem updateDispl_refused (route : c.req.route = .updateDispl)
    (late : ¬ AnswersEarly P c.req c.user) :
    (refuses P rid).Safe c (OneRoof.route P c) w := by
  simp only [AnswersEarly, route] at late
  simp only [OneRoof.route, route]
  refine safe_withUser fun u hu => safe_getUserCatch trivial (fun _ _ _ => safe_send rfl)
    fun w' rows db _ _ he _ _ => ?_
  cases rows with
  | nil => exact safe_send rfl
  | cons row rows => exact absurd ⟨u, row, hu, w'.db, db, _, he, rfl⟩ late

theorem updatePass_refused (route : c.req.route = .updatePass)
    (late : ¬ AnswersEarly P c.req c.user) :
    (refuses P rid).Safe c (OneRoof.route P c) w := by
  simp only [AnswersEarly, route] at late
  simp only [OneRoof.route, route]
  refine safe_withUser fun u hu => safe_getUserCatch trivial (fun _ _ _ => safe_send rfl)
    fun w' rows db _ _ he _ _ => ?_
  cases rows with
  | nil => exact safe_send rfl
  | cons row rows =>
    refine ⟨trivial, safe_attempt fun valid hv => ?_⟩
    cases valid with
    | false => exact safe_send rfl
    | true =>
      refine safe_attempt fun pass hp => absurd ?_ late
      exact ⟨by simp [hp], u, row, hu, ⟨w'.db, db, _, he, rfl⟩, hv⟩

theorem createHouse_refused (route : c.req.route = .createHouse)
    (late : ¬ AnswersEarly P c.req c.user) :
    (refuses P rid).Safe c (OneRoof.route P c) w := by
  simp only [AnswersEarly, route] at late
  simp only [OneRoof.route, route]
  refine safe_thenCatch trivial (fun _ _ _ => safe_send rfl) fun w' rows db _ _ he _ _ => ?_
  exact safe_withUser fun u hu => absurd ⟨by simp [hu], w'.db, _, he⟩ late

theorem addTask_refused (route : c.req.route = .addTask)
    (late : ¬ AnswersEarly P c.req c.user) :
    (refuses P rid).Safe c (OneRoof.route P c) w := by
  simp only [AnswersEarly, route] at late
  simp only [OneRoof.route, route]
  refine safe_thenCatch trivial (fun _ _ _ => safe_send rfl) fun w' rows db _ _ he _ good => ?_
  have unanswered : ¬ TaskAnswered c.req c.user := fun answered =>
    late ⟨⟨w'.db, _, he⟩, answered⟩
  simp only [addTaskOwners]
  cases hl : (c.req.body.get "taskOwner").loop with
  | none => trivial
  | some owners =>
    simp only [attempt]
    by_cases throws : owners.broken = true ∨ ∃ o ∈ owners.items,
        (do let taskOwnerID ← o.prop "user_id"
            let u ← c.user
            return Stmt.updateUserTaskTable (guid c.req.draws) taskOwnerID u.user_id) = none
    · exact safe_startEach_throws (fun _ _ _ => trivial) throws
    · push Not at throws
      have all : ∀ o ∈ owners.items, o.prop "user_id" ≠ none ∧ c.user ≠ none := by
        intro o ho
        have := throws.2 o ho
        constructor <;> intro h <;> simp [h] at this
      have complete : owners = ⟨owners.items, false⟩ := by
        obtain ⟨items, broken⟩ := owners
        simpa using throws.1
      refine Discipline.Safe.andThen good (safe_startEach (fun _ _ _ => trivial) safe_done _)
        fun w'' _ _ => safe_attempt fun chore hc => ?_
      have detail : ¬ (chore = false → (c.req.body.get "amount").parseInt ≠ none) := fun h =>
        unanswered ⟨⟨_, by rw [hl, complete], all⟩, chore, hc, h⟩
      push Not at detail
      rw [detail.1]
      simp only [Bool.false_eq_true, if_false, detail.2, attempt]
      trivial

theorem signup_refused (route : c.req.route = .signup) (late : ¬ AnswersEarly P c.req c.user) :
    (refuses P rid).Safe c (OneRoof.route P c) w := by
  simp only [AnswersEarly, route] at late
  simp only [OneRoof.route, route, signup, withCredentials]
  split
  · rename_i given
    refine safe_attempt fun same confirmed => ?_
    cases same with
    | false => exact safe_send rfl
    | true =>
      refine safe_getUser trivial (fun _ _ _ => trivial) fun w₁ rows db₁ _ _ he₁ _ _ => ?_
      cases rows with
      | cons row rows => exact safe_send rfl
      | nil =>
        refine safe_attempt fun hashPass hashed => safe_attempt fun name named => ?_
        split
        · trivial
        · rename_i plain
          refine safe_attempt fun texts printed => safe_thenCatch trivial
            (fun _ _ _ => safe_send rfl) fun w₂ _ db₂ _ _ he₂ _ _ => ?_
          refine safe_getUser trivial (fun _ _ _ => trivial) fun w₃ rows db₃ _ _ he₃ _ _ => ?_
          refine safe_attempt fun row head => absurd ?_ late
          exact ⟨given.1, given.2, confirmed, ⟨_, _, he₁⟩,
            ⟨hashPass, hashed, by simp [printed], _, _, he₂⟩, by simp [named],
            by simpa using plain, row, _, _, rows, he₃, head⟩
  · exact safe_send rfl

end Refused

section Waits

variable {rid : Nat} {c : Ctx} {s : Stmt} {k : Option s.Reply → Prog}

/-- A handler that throws, or waits for its one statement and then answers. -/
theorem handler_waits (waits : c.req.route = .addComment ∨ c.req.route = .deleteComment ∨
      c.req.route = .deleteTask ∨ c.req.route = .leaveHouse) :
    handler P c = send (.status 500 "Internal Server Error") c.user ∨
    ∃ s k, handler P c = .issue s k .done ∧ k none = .throw ∧
      ∀ r, ∃ answer user, k (some r) = send answer user := by
  rcases waits with route | route | route | route
  · simp only [handler, OneRoof.route, route, addComment]
    cases c.req.body.toStr with
    | none => exact Or.inl rfl
    | some text =>
      cases c.user with
      | none => exact Or.inl rfl
      | some u => exact Or.inr ⟨_, _, rfl, rfl, fun r => ⟨_, _, rfl⟩⟩
  · simp only [handler, OneRoof.route, route]
    exact Or.inr ⟨_, _, rfl, rfl, fun r => ⟨_, _, rfl⟩⟩
  · simp only [handler, OneRoof.route, route, deleteTask]
    cases (c.req.body.get "id").toStr with
    | none => exact Or.inl rfl
    | some text => exact Or.inr ⟨_, _, rfl, rfl, fun r => ⟨_, _, rfl⟩⟩
  · simp only [handler, OneRoof.route, route, leaveHouse]
    cases c.user with
    | none => exact Or.inl rfl
    | some u => exact Or.inr ⟨_, _, rfl, rfl, fun r => ⟨_, _, rfl⟩⟩

/-- Waiting for the one statement, or done with it. -/
def Awaits (rid : Nat) (p : Pending Stmt Stmt.Reply Act Ctx) (σ : Config P) : Prop :=
  σ.pending = [p] ∧ (∀ e ∈ σ.world.log, e.ctx.rid ≠ rid) ∨
  σ.pending = [] ∧ ((∀ c' s', .failed c' s' ∈ σ.world.log → c'.rid ≠ rid) ∨
    ∀ c' answer user, .answered c' answer user ∈ σ.world.log → c'.rid ≠ rid)

theorem Awaits.backed {p : Pending Stmt Stmt.Reply Act Ctx} {σ : Config P}
    (awaits : Awaits rid p σ) : Backed rid σ := by
  intro c' answer user mem hc _
  rcases awaits with ⟨-, unused⟩ | ⟨idle, noFailure | noAnswer⟩
  · exact absurd hc (unused _ mem)
  · exact ⟨by simp [idle], noFailure⟩
  · exact absurd hc (noAnswer c' answer user mem)

theorem step_awaits (failed : k none = .throw)
    (answers : ∀ r, ∃ answer user, k (some r) = send answer user) {l : Label P}
    (own : (∃ i lost, l = .settle i lost) ∨ ∃ db, l = .disturb db) {σ : Config P}
    (awaits : Awaits rid ⟨c, s, k⟩ σ) : Awaits rid ⟨c, s, k⟩ (step (server P) l σ) := by
  rcases own with ⟨i, lost, rfl⟩ | ⟨db, rfl⟩
  · rcases awaits with ⟨pending, unused⟩ | ⟨idle, log⟩
    · rcases server_settle_cases i lost σ with same | ⟨p, hp, outcome⟩
      · exact Or.inl ⟨by rw [step, same]; exact pending, by rw [step, same]; exact unused⟩
      rw [pending] at hp
      cases i with
      | succ i => cases hp
      | zero =>
        cases hp
        right
        rcases outcome with ⟨hs, -⟩ | ⟨r, db, -, -, hs⟩
        · dsimp only at hs
          rw [step, hs, failed, pending]
          refine ⟨rfl, Or.inr fun c' answer user mem => ?_⟩
          rcases List.mem_append.mp mem with old | new
          · exact unused _ old
          · cases List.mem_singleton.mp new
        · obtain ⟨answer, user, hk⟩ := answers r
          dsimp only at hs
          rw [step, hs, hk, pending]
          have noFailure : ∀ c' s', .failed c' s' ∈ (σ.world.complete c s r db).log →
              c'.rid ≠ rid := fun c' s' mem => by
            rcases List.mem_append.mp mem with old | new
            · exact unused _ old
            · cases List.mem_singleton.mp new
          obtain ⟨idle, log⟩ := enter_send c answer user
            (⟨σ.world.complete c s r db, []⟩ : Config P)
          refine ⟨idle, Or.inl fun c' s' mem => ?_⟩
          rcases log with same | more
          · exact noFailure c' s' (same ▸ mem)
          · rcases List.mem_append.mp (more ▸ mem) with old | new
            · exact noFailure c' s' old
            · cases List.mem_singleton.mp new
    · have idle' : step (server P) (.settle i lost) σ = σ := settle_idle _ i lost σ idle
      rw [idle']
      exact Or.inr ⟨idle, log⟩
  · exact awaits

theorem waits_backed {q : Request} {w : World P}
    (waits : q.route = .addComment ∨ q.route = .deleteComment ∨ q.route = .deleteTask ∨
      q.route = .leaveHouse) (fresh : Fresh ⟨w, []⟩) {ls : List (Label P)} (opens : Open ls) :
    Backed w.nextReq (run (server P) (.arrive q :: ls) ⟨w, []⟩) := by
  rcases handler_waits (P := P) (c := w.context q) waits with
    thrown | ⟨s, k, hk, failed, answers⟩
  · exact backed_of_refused fresh opens (thrown ▸ safe_send rfl)
  · have start : Awaits w.nextReq ⟨w.context q, s, k⟩
        (step (server P) (.arrive q) (⟨w, []⟩ : Config P)) := by
      rw [arrive_eq, hk]
      exact Or.inl ⟨rfl, fun e he => Nat.ne_of_lt (fresh.logged e he)⟩
    rw [run_cons]
    exact (run_invariant _ (Awaits w.nextReq ⟨w.context q, s, k⟩)
      (fun σ l own awaits => step_awaits failed answers own awaits)
      (along_of_forall _ opens _) start).backed

end Waits

section Early

/-- The program comes to a success answer before anything settles. -/
def Acks : Prog → Prop
  | .act (.send answer _) _ => answer.success = true
  | .act (.compareSync _) k => Acks (k true)
  | .issue _ _ rest => Acks rest
  | _ => False

theorem Acks.recover {prog h : Prog} (acks : Acks prog) : Acks (prog.recover h) := by
  induction prog with
  | done => exact absurd acks id
  | throw => exact absurd acks id
  | issue s k rest _ ih => exact ih acks
  | act a k ih =>
    cases a with
    | send answer user => exact acks
    | compareSync hash => exact ih true acks
    | push entry total => exact absurd acks id
    | sendGathered user => exact absurd acks id

/-- A loop that does not throw starts its statements and goes on. -/
theorem startEach_acks {f : JsVal → Option Stmt} {items : List JsVal} {next : Prog}
    (all : ∀ v ∈ items, f v ≠ none) (acks : Acks next) :
    Acks ((startEach f false .done items).andThen next) := by
  induction items with
  | nil => exact acks
  | cons v items ih =>
    obtain ⟨s, hs⟩ := Option.ne_none_iff_exists'.mp (all v List.mem_cons_self)
    simp only [startEach, hs, attempt]
    exact ih fun v' hv' => all v' (List.mem_cons_of_mem v hv')

theorem startEach_starts {f : JsVal → Option Stmt} {items : List JsVal} {next : Prog}
    (all : ∀ v ∈ items, f v ≠ none) (starts : ∃ s k rest, next = .issue s k rest) :
    ∃ s k rest, (startEach f false .done items).andThen next = .issue s k rest := by
  cases items with
  | nil => exact starts
  | cons v items =>
    obtain ⟨s, hs⟩ := Option.ne_none_iff_exists'.mp (all v List.mem_cons_self)
    simp only [startEach, hs, attempt]
    exact ⟨_, _, _, rfl⟩

theorem enter_log_mono {c : Ctx} (prog : Prog) {σ : Config P} {e : Event}
    (mem : e ∈ σ.world.log) : e ∈ (enter (server P) c prog σ).world.log :=
  (enter_log c prog σ).subset mem

theorem enter_acks {c : Ctx} {prog : Prog} (acks : Acks prog) (σ : Config P)
    (unanswered : σ.world.log.any (Event.answers c.rid) = false) :
    ∃ answer user, answer.success = true ∧
      .answered c answer user ∈ (enter (server P) c prog σ).world.log := by
  induction prog generalizing σ with
  | done => exact absurd acks id
  | throw => exact absurd acks id
  | issue s k rest _ ih => exact ih acks ⟨σ.world, σ.pending ++ [⟨c, s, k⟩]⟩ unanswered
  | act a k ih =>
    cases a with
    | send answer user =>
      refine ⟨answer, user, acks, enter_log_mono (k _) (σ := ⟨_, σ.pending⟩) ?_⟩
      simp [server, World.perform, World.answer, unanswered]
    | compareSync hash =>
      refine ih true acks ⟨_, σ.pending⟩ ?_
      simp [server, World.perform, unanswered, Event.answers]
    | push entry total => exact absurd acks id
    | sendGathered user => exact absurd acks id

variable {q : Request} {user : Option SessionUser}

/-- Nothing has happened yet, and the session has the given user. -/
def quietWorld (P : Platform) (user : Option SessionUser) : World P :=
  World.fresh P (emptyDatabase P.collate) fun _ => user

/-- A run that ends in a program with a success answer, while something else that
the request has sent is in flight. -/
theorem not_ackBacked (ls : List (Label P)) (opens : Open ls) {c : Ctx} (hc : c.rid = 0)
    {prog : Prog} (acks : Acks prog) {σ : Config P}
    (hrun : run (server P) (.arrive q :: ls) ⟨quietWorld P user, []⟩ = enter (server P) c prog σ)
    (unanswered : σ.world.log.any (Event.answers c.rid) = false)
    (busy : ∃ p ∈ σ.pending, p.ctx.rid = 0) : ¬ AckBacked P q user := by
  intro backed
  have fresh : Fresh (⟨quietWorld P user, []⟩ : Config P) :=
    ⟨fun _ h => absurd h List.not_mem_nil, fun _ _ => rfl, fun _ h => absurd h List.not_mem_nil⟩
  obtain ⟨answer, u, success, mem⟩ := enter_acks acks σ unanswered
  obtain ⟨new, pending, -⟩ := enter_pending (server P) c prog σ
  obtain ⟨p, hp, hr⟩ := busy
  have quiet := (backed _ ls fresh rfl opens c answer u (hrun ▸ mem) hc success).1 p
  rw [hrun, pending] at quiet
  exact quiet (List.mem_append_left _ hp) hr

theorem open_nil : Open ([] : List (Label P)) := fun _ h => absurd h List.not_mem_nil

/-- Somebody changes the tables, then a statement settles. -/
theorem open_settle {ls : List (Label P)} (db : Database P.collate) (i : Nat)
    (opens : Open ls) : Open (.disturb db :: .settle i false :: ls) := by
  intro l hl
  rcases List.mem_cons.mp hl with rfl | hl
  · exact Or.inr ⟨db, rfl⟩
  rcases List.mem_cons.mp hl with rfl | hl
  · exact Or.inl ⟨i, false, rfl⟩
  · exact opens l hl

/-- The last statement in flight finds the tables others have left. -/
theorem run_disturbed (ps : List (Pending Stmt Stmt.Reply Act Ctx)) {w : World P} {c : Ctx}
    {s : Stmt} {k : Option s.Reply → Prog} {r : s.Reply} {db db' : Database P.collate}
    (he : exec P.collate s db = some (r, db')) (ls : List (Label P)) :
    run (server P) (.disturb db :: .settle ps.length false :: ls) ⟨w, ps ++ [⟨c, s, k⟩]⟩ =
      run (server P) ls (enter (server P) c (k (some r))
        ⟨({ w with db := db } : World P).complete c s r db', ps⟩) := by
  have settled := settle_last (σ := (⟨{ w with db := db }, ps ++ [⟨c, s, k⟩]⟩ : Config P)) rfl he
  rw [run_cons, run_cons, ← settled]
  rfl

/-- The answer comes after the first reply, with the logged copy of the look-up
still in flight. -/
theorem early_lookup {s : Stmt} {k : Option s.Reply → Prog} {r : s.Reply}
    {db db' : Database P.collate}
    (looks : handler P ((quietWorld P user).context q) =
      .issue s (fun _ => .done) (.issue s k .done))
    (he : exec P.collate s db = some (r, db')) (acks : Acks (k (some r))) :
    ¬ AckBacked P q user := by
  let c := (quietWorld P user).context q
  have hrun : run (server P) [.arrive q, .disturb db, .settle 1 false] ⟨quietWorld P user, []⟩ =
      enter (server P) c (k (some r)) ⟨({ (quietWorld P user).next with db := db } :
        World P).complete c s r db', [⟨c, s, fun _ => .done⟩]⟩ := by
    rw [run_cons, arrive_eq, looks]
    exact run_disturbed [⟨c, s, fun _ => .done⟩] he []
  exact not_ackBacked _ (open_settle db 1 open_nil) rfl acks hrun rfl
    ⟨_, List.mem_singleton_self _, rfl⟩

/-- The answer comes right after another statement was started. -/
theorem early_single {s : Stmt} {k : Option s.Reply → Prog} {r : s.Reply}
    {db db' : Database P.collate}
    (single : handler P ((quietWorld P user).context q) = .issue s k .done)
    (he : exec P.collate s db = some (r, db'))
    (starts : ∃ s' k' rest, k (some r) = .issue s' k' rest) (acks : Acks (k (some r))) :
    ¬ AckBacked P q user := by
  obtain ⟨s', k', rest, starts⟩ := starts
  rw [starts] at acks
  let c := (quietWorld P user).context q
  have hrun : run (server P) [.arrive q, .disturb db, .settle 0 false] ⟨quietWorld P user, []⟩ =
      enter (server P) c rest ⟨({ (quietWorld P user).next with db := db } :
        World P).complete c s r db', [⟨c, s', k'⟩]⟩ := by
    rw [run_cons, arrive_eq, single]
    refine (run_disturbed [] he []).trans ?_
    rw [starts]
    rfl
  have rest_acks : Acks rest := acks
  exact not_ackBacked _ (open_settle db 0 open_nil) rfl rest_acks hrun rfl
    ⟨_, List.mem_singleton_self _, rfl⟩

theorem upload_early (route : q.route = .upload) (early : AnswersEarly P q user) :
    ¬ AckBacked P q user := by
  simp only [AnswersEarly, route] at early
  obtain ⟨someUser, someFile, renamed⟩ := early
  obtain ⟨u, rfl⟩ := Option.ne_none_iff_exists'.mp someUser
  obtain ⟨filename, file⟩ := Option.ne_none_iff_exists'.mp someFile
  obtain ⟨s, k, rest, starts, acks⟩ : ∃ s k rest, handler P ((quietWorld P (some u)).context q) =
      .issue s k rest ∧ Acks rest := by
    simp only [handler, OneRoof.route, World.context, quietWorld, World.fresh, route, upload,
      withUser, attempt, file, renamed]
    exact ⟨_, _, _, rfl, Acks.recover rfl⟩
  have hrun : run (server P) [.arrive q] ⟨quietWorld P (some u), []⟩ = enter (server P)
      ((quietWorld P (some u)).context q) rest
      ⟨(quietWorld P (some u)).next, [⟨(quietWorld P (some u)).context q, s, k⟩]⟩ := by
    rw [run_cons, arrive_eq, starts]
    rfl
  exact not_ackBacked [] open_nil rfl acks hrun rfl ⟨_, List.mem_singleton_self _, rfl⟩

theorem updateDispl_early (route : q.route = .updateDispl) (early : AnswersEarly P q user) :
    ¬ AckBacked P q user := by
  simp only [AnswersEarly, route] at early
  obtain ⟨u, row, rfl, db, db', rows, he, head⟩ := early
  refine early_lookup (by simp only [handler, OneRoof.route, World.context, route]; rfl) he
    (Acks.recover ?_)
  cases rows with
  | nil => cases head
  | cons row rows => exact (rfl : Answer.success (.json _) = true)

theorem updatePass_early (route : q.route = .updatePass) (early : AnswersEarly P q user) :
    ¬ AckBacked P q user := by
  simp only [AnswersEarly, route] at early
  obtain ⟨printed, u, row, rfl, ⟨db, db', rows, he, head⟩, valid⟩ := early
  obtain ⟨pass, hp⟩ := Option.ne_none_iff_exists'.mp printed
  refine early_lookup (by simp only [handler, OneRoof.route, World.context, route]; rfl) he
    (Acks.recover ?_)
  cases rows with
  | nil => cases head
  | cons first rows =>
    cases head
    simp only [List.head?_cons, Acks, valid, hp, attempt, if_true]
    exact (rfl : Answer.success (.json _) = true)

theorem createHouse_early (route : q.route = .createHouse) (early : AnswersEarly P q user) :
    ¬ AckBacked P q user := by
  simp only [AnswersEarly, route] at early
  obtain ⟨someUser, db, ⟨r, db'⟩, he⟩ := early
  obtain ⟨u, rfl⟩ := Option.ne_none_iff_exists'.mp someUser
  refine early_single (by simp only [handler, OneRoof.route, World.context, route]; rfl) he
    ⟨_, _, _, rfl⟩ (Acks.recover ?_)
  exact (rfl : Answer.success (.json _) = true)

/-- After the owner loop the detail is started and the answer is sent. -/
theorem addTask_acks (answered : TaskAnswered q user) (taskID : String) :
    (∃ s k rest, (addTaskOwners q user taskID).andThen (addTaskDetail q user taskID) =
      .issue s k rest) ∧
    Acks ((addTaskOwners q user taskID).andThen (addTaskDetail q user taskID)) := by
  obtain ⟨⟨items, loop, all⟩, chore, type, amount⟩ := answered
  have owned : ∀ o ∈ items, (do
      let taskOwnerID ← o.prop "user_id"
      let u ← user
      return Stmt.updateUserTaskTable taskID taskOwnerID u.user_id) ≠ none := by
    intro o ho
    obtain ⟨id, hid⟩ := Option.ne_none_iff_exists'.mp (all o ho).1
    obtain ⟨u, hu⟩ := Option.ne_none_iff_exists'.mp (all o ho).2
    simp [hid, hu]
  have detail : (∃ s k rest, addTaskDetail q user taskID = .issue s k rest) ∧
      Acks (addTaskDetail q user taskID) := by
    simp only [addTaskDetail, type, attempt]
    cases chore with
    | true => exact ⟨⟨_, _, _, rfl⟩, (rfl : Answer.success (.json _) = true)⟩
    | false =>
      obtain ⟨n, hn⟩ := Option.ne_none_iff_exists'.mp (amount rfl)
      simp only [Bool.false_eq_true, if_false, hn]
      exact ⟨⟨_, _, _, rfl⟩, (rfl : Answer.success (.json _) = true)⟩
  simp only [addTaskOwners, loop, attempt]
  exact ⟨startEach_starts owned detail.1, startEach_acks owned detail.2⟩

theorem addTask_early (route : q.route = .addTask) (early : AnswersEarly P q user) :
    ¬ AckBacked P q user := by
  simp only [AnswersEarly, route] at early
  obtain ⟨⟨db, ⟨r, db'⟩, he⟩, answered⟩ := early
  obtain ⟨⟨s, k, rest, starts⟩, acks⟩ := addTask_acks answered (guid q.draws)
  refine early_single (by simp only [handler, OneRoof.route, World.context, route]; rfl) he
    ⟨s, k, rest.recover (send (.status 404 "Something's fucky") user), ?_⟩ (Acks.recover acks)
  exact congrArg (Async.Prog.recover · (send (.status 404 "Something's fucky") user)) starts

/-- The answer comes after the second look-up, with the logged copy of the first
still in flight. -/
theorem signup_early (route : q.route = .signup) (early : AnswersEarly P q user) :
    ¬ AckBacked P q user := by
  simp only [AnswersEarly, route] at early
  obtain ⟨email, password, confirmed, ⟨db₁, db₁', free⟩, ⟨hash, hashed, printed, db₂, ⟨r, db₂'⟩,
    stored⟩, named, plain, row, db₃, db₃', rows, found, head⟩ := early
  obtain ⟨texts, printed⟩ := Option.isSome_iff_exists.mp printed
  obtain ⟨name, named⟩ := Option.ne_none_iff_exists'.mp named
  let c := (quietWorld P user).context q
  let newUser := signupUser q (credential q "email") hash
  let copy : Pending Stmt Stmt.Reply Act Ctx := ⟨c, .getUser newUser.email, fun _ => .done⟩
  have opened : handler P c = bankGetUser (credential q "email") (thenRun fun rows =>
      if rows.length = 0 then createLocal P q user (credential q "email") (credential q "password")
      else unauthorized user) := by
    simp only [handler, OneRoof.route, c, World.context, route, signup, withCredentials, email,
      password, and_self, if_true, localSignup, confirmed, attempt]
    rfl
  have inserts : createLocal P q user (credential q "email") (credential q "password") =
      query (.createUser (newLocalUser newUser))
        (thenCatch (fun _ => signedUp newUser) (unauthorized user)) := by
    simp only [createLocal, hashed, named, plain, printed, attempt, newUser, Bool.false_eq_true,
      if_false]
  let answers : List (Row UserCol) → Prog := fun rows => attempt rows.head? fun row =>
    send (.json { newUser with user_id := cellInt (row .user_id) }.js)
      (some { newUser with user_id := cellInt (row .user_id) })
  let w₁ : World P := World.complete { (quietWorld P user).next with db := db₁ } c
    (.getUser newUser.email) [] db₁'
  let w₂ : World P := World.complete { w₁ with db := db₂ } c
    (.createUser (newLocalUser newUser)) r db₂'
  let w₃ : World P := World.complete { w₂ with db := db₃ } c (.getUser newUser.email) rows db₃'
  have hrun : run (server P) (.arrive q :: [.disturb db₁, .settle 1 false, .disturb db₂,
      .settle 1 false, .disturb db₃, .settle 2 false]) ⟨quietWorld P user, []⟩ =
      enter (server P) c (answers rows) ⟨w₃, [copy, copy]⟩ := by
    rw [run_cons, arrive_eq, opened]
    refine (run_disturbed [copy] free _).trans ?_
    simp only [thenRun, List.length_nil, if_true, inserts]
    exact (run_disturbed [copy] stored _).trans (run_disturbed [copy, copy] found [])
  have acks : Acks (answers rows) := by
    simp only [answers, head, attempt]
    exact (rfl : Answer.success (.json _) = true)
  exact not_ackBacked _ (open_settle db₁ 1 (open_settle db₂ 1 (open_settle db₃ 2 open_nil))) rfl
    acks hrun rfl ⟨copy, List.mem_cons_self, rfl⟩

end Early

end OneRoof
