import Mathlib.Data.List.Perm.Basic
import OneRoof.Assignment

/-!
# Gathering the tasks of several users

`/api/tasks` sends one query for each user of its body and answers once the last of
them has completed, with the lists in the order in which they came. At every moment the
queries that have completed and those in flight are together the queries that were sent,
whatever else the server does in between.
-/

namespace OneRoof

open Sql Async Async.Prog Prog

variable {P : Platform}

abbrev TaskRows := List (Row UserCol × Row UserTaskCol × Row TaskCol)

/-- The body lists users, and the mapper prints each of them, with its email and the status,
without an exception. -/
structure AsksUsers (q : Request) (users : List JsVal) (status : JsVal) : Prop where
  route : q.route = .tasks
  listed : q.body.get "users" = .arr users
  asked : q.body.get "status" = status
  readable : ∀ user ∈ users, taskArguments status user ≠ none

/-- What one request has added to the log. -/
def World.history (w : World P) (rid : Nat) : List Event :=
  w.log.filter fun e => e.ctx.rid = rid

/-- The statements one request has in flight. -/
def inFlight (rid : Nat) (σ : Config P) : List (Pending Stmt Stmt.Reply Act Ctx) :=
  σ.pending.filter fun p => p.ctx.rid = rid

/-- A query that has completed, by the email it was sent for. -/
def fetched (c : Ctx) (status : JsVal) (f : JsVal × TaskRows) : Event :=
  .completed c (.getTasksForUser f.1 status) f.2

section Sent

variable {status : JsVal} {users : List JsVal}

theorem taskArguments_readable {user : JsVal} (readable : taskArguments status user ≠ none) :
    taskArguments status user = some (user.get "email", status) := by
  obtain ⟨a, ha⟩ := Option.ne_none_iff_exists'.mp readable
  rw [ha]
  obtain ⟨-, -, ha⟩ := Option.bind_eq_some_iff.mp ha
  obtain ⟨email, hm, ha⟩ := Option.bind_eq_some_iff.mp ha
  obtain ⟨-, -, ha⟩ := Option.bind_eq_some_iff.mp ha
  obtain ⟨-, -, ha⟩ := Option.bind_eq_some_iff.mp ha
  cases ha
  have same : user.get "email" = email := by
    cases user <;> first | exact Option.some.inj hm | cases hm
  rw [same]

theorem mapM_readable (readable : ∀ user ∈ users, taskArguments status user ≠ none) :
    users.mapM (taskArguments status) =
      some (users.map fun user => (user.get "email", status)) := by
  induction users with
  | nil => rfl
  | cons user users ih =>
    rw [List.mapM_cons, taskArguments_readable (readable user List.mem_cons_self),
      ih fun v hv => readable v (List.mem_cons_of_mem _ hv)]
    rfl

/-- Users that can be printed one by one can be printed together. -/
theorem users_toStr (readable : ∀ user ∈ users, taskArguments status user ≠ none) :
    (JsVal.arr users).toStr ≠ none := by
  have joins : ∃ parts, JsVal.joinStr users = some parts := by
    induction users with
    | nil => exact ⟨[], rfl⟩
    | cons user users ih =>
      obtain ⟨parts, hp⟩ := ih fun v hv => readable v (List.mem_cons_of_mem _ hv)
      have first := taskArguments_readable (readable user List.mem_cons_self)
      obtain ⟨text, printed, -⟩ := Option.bind_eq_some_iff.mp first
      cases user <;> exact ⟨_, by simp [JsVal.joinStr, hp, printed]; rfl⟩
  obtain ⟨parts, hp⟩ := joins
  rw [JsVal.toStr, hp]
  exact Option.some_ne_none _

/-- One of the queries, with the callback that gathers its list. -/
def gathering (c : Ctx) (status : JsVal) (total : Nat) (email : JsVal) :
    Pending Stmt Stmt.Reply Act Ctx :=
  ⟨c, .getTasksForUser email status, thenRun fun rows =>
    act (.push (taskRowsJs rows) total) fun complete =>
      if complete then act (.sendGathered c.user) fun ok => if ok then done else throw else done⟩

theorem enter_gatherTasks (c : Ctx) (total : Nat) (emails : List JsVal) (σ : Config P) :
    enter (server P) c (gatherTasks c.user total (emails.map fun email => (email, status))) σ =
      ⟨σ.world, σ.pending ++ emails.map (gathering c status total)⟩ := by
  induction emails generalizing σ with
  | nil => simp [gatherTasks, enter]
  | cons email emails ih =>
    refine (ih ⟨σ.world, σ.pending ++ [gathering c status total email]⟩).trans ?_
    simp

theorem gatherTasks_recover (user : Option SessionUser) (total : Nat)
    (queries : List (JsVal × JsVal)) (h : Prog) :
    (gatherTasks user total queries).recover h = gatherTasks user total queries := by
  induction queries with
  | nil => rfl
  | cons query queries ih => exact congrArg _ ih

theorem handler_users {c : Ctx} (asks : AsksUsers c.req users status) (some_user : users ≠ []) :
    handler P c = gatherTasks c.user users.length
      ((users.map fun user => user.get "email").map fun email => (email, status)) := by
  obtain ⟨text, ht⟩ := Option.ne_none_iff_exists'.mp (users_toStr asks.readable)
  obtain ⟨user, rest, rfl⟩ := List.exists_cons_of_ne_nil some_user
  simp only [handler, route, asks.route, tasks, asks.listed, ht, attempt, asks.asked,
    mapM_readable asks.readable, List.map_cons, List.map_map]
  rw [gatherTasks_recover]
  simp [Function.comp_def]

theorem handler_nobody {c : Ctx} (asks : AsksUsers c.req [] status) :
    handler P c = (Prog.send (.json (.arr [])) c.user).recover
      (Prog.send (.status 500 "Internal Server Error") c.user) := by
  simp only [handler, route, asks.route, tasks, asks.listed]
  rfl

/-- Where there are users, a query is sent for each of them, and nothing else is done. -/
theorem enter_tasks {c : Ctx} (asks : AsksUsers c.req users status) (some_user : users ≠ [])
    (σ : Config P) : enter (server P) c (handler P c) σ =
      ⟨σ.world, σ.pending ++
        (users.map fun user => user.get "email").map (gathering c status users.length)⟩ := by
  rw [handler_users asks some_user, enter_gatherTasks]

/-- Where there are none, the answer is an empty array. -/
theorem enter_nobody {c : Ctx} (asks : AsksUsers c.req [] status) {σ : Config P}
    (unanswered : σ.world.log.any (Event.answers c.rid) = false) :
    (enter (server P) c (handler P c) σ).pending = σ.pending ∧
    (enter (server P) c (handler P c) σ).world.gathered = σ.world.gathered ∧
    (enter (server P) c (handler P c) σ).world.log =
      σ.world.log ++ [.answered c (.json (.arr [])) c.user] := by
  rw [handler_nobody asks]
  simp [Prog.send, recover, enter, server, World.perform, World.answer, unanswered]

end Sent

section Others

variable {rid : Nat} {c : Ctx}

/-- What belongs to one request is not touched by what another one does. -/
structure SameFor (rid : Nat) (σ τ : Config P) : Prop where
  inFlight : (inFlight rid τ).Perm (inFlight rid σ)
  history : τ.world.history rid = σ.world.history rid
  gathered : τ.world.gathered rid = σ.world.gathered rid

theorem enter_sameFor (other : c.rid ≠ rid) (prog : Prog) (σ : Config P) :
    SameFor rid σ (enter (server P) c prog σ) := by
  constructor
  · obtain ⟨new, pending, ctx⟩ := enter_pending (server P) c prog σ
    have none : new.filter (fun p => p.ctx.rid = rid) = [] := by
      rw [List.filter_eq_nil_iff]
      intro p hp
      simpa [ctx p hp] using other
    rw [inFlight, pending, List.filter_append, none, List.append_nil]
    exact List.Perm.refl _
  · obtain ⟨new, logged, ctx⟩ := enter_events c prog σ
    have none : new.filter (fun e => e.ctx.rid = rid) = [] := by
      rw [List.filter_eq_nil_iff]
      intro e he
      simpa [ctx e he] using other
    rw [World.history, logged, List.filter_append, none, List.append_nil]
    rfl
  · induction prog generalizing σ with
    | done => rfl
    | throw => rfl
    | issue s k rest _ ih => exact ih ⟨σ.world, σ.pending ++ [⟨c, s, k⟩]⟩
    | act a k ih =>
      exact (ih _ _).trans (perform_gathered c a σ.world (Ne.symm other))

theorem SameFor.trans {σ τ υ : Config P} (first : SameFor rid σ τ) (second : SameFor rid τ υ) :
    SameFor rid σ υ :=
  ⟨second.inFlight.trans first.inFlight, second.history.trans first.history,
    second.gathered.trans first.gathered⟩

/-- A statement that is settled leaves the list, and the others stay. -/
theorem settled_perm {σ : Config P} {i : Nat} {p : Pending Stmt Stmt.Reply Act Ctx}
    (hp : σ.pending[i]? = some p) : (p :: σ.pending.eraseIdx i).Perm σ.pending := by
  obtain ⟨lt, hi⟩ := List.getElem?_eq_some_iff.mp hp
  rw [← hi]
  exact List.getElem_cons_eraseIdx_perm lt

theorem settle_sameFor {σ : Config P} {i : Nat} {lost : Bool}
    {p : Pending Stmt Stmt.Reply Act Ctx} (hp : σ.pending[i]? = some p) (other : p.ctx.rid ≠ rid) :
    SameFor rid σ (settle (server P) i lost σ) := by
  have rest : ((σ.pending.eraseIdx i).filter fun p => p.ctx.rid = rid).Perm (inFlight rid σ) := by
    have filtered := (settled_perm hp).filter fun p => decide (p.ctx.rid = rid)
    rwa [List.filter_cons_of_neg (by simpa using other)] at filtered
  have logged : ∀ e : Event, e.ctx = p.ctx →
      (σ.world.log ++ [e]).filter (fun e => e.ctx.rid = rid) = σ.world.history rid := by
    intro e he
    rw [List.filter_append, List.filter_singleton, World.history]
    simp [he, other]
  rcases server_settle_cases i lost σ with same | ⟨p', hp', ⟨hs, -⟩ | ⟨r, db, -, -, hs⟩⟩
  · rw [same]
    exact ⟨List.Perm.refl _, rfl, rfl⟩
  · cases hp.symm.trans hp'
    have first : SameFor rid σ ⟨σ.world.fail p.ctx p.stmt, σ.pending.eraseIdx i⟩ :=
      ⟨rest, logged _ rfl, rfl⟩
    rw [hs]
    exact first.trans (enter_sameFor other _ _)
  · cases hp.symm.trans hp'
    have first : SameFor rid σ ⟨σ.world.complete p.ctx p.stmt r db, σ.pending.eraseIdx i⟩ :=
      ⟨rest, logged _ rfl, rfl⟩
    rw [hs]
    exact first.trans (enter_sameFor other _ _)

end Others

/-- The answer, once all lists have come. -/
def gatheredAnswer (c : Ctx) (came : List (JsVal × TaskRows)) : Event :=
  .answered c (.json (.arr (came.map fun f => taskRowsJs f.2))) c.user

/-- What has come and what is still to come make up what was asked for, and the answer is
there when nothing is left. -/
structure Gathering (c : Ctx) (status : JsVal) (emails : List JsVal) (σ : Config P)
    (came : List (JsVal × TaskRows)) (left : List JsVal) : Prop where
  known : c.rid < σ.world.nextReq
  split : (came.map Prod.fst ++ left).Perm emails
  waits : (inFlight c.rid σ).Perm (left.map (gathering c status emails.length))
  gathered : σ.world.gathered c.rid = came.map fun f => taskRowsJs f.2
  history : σ.world.history c.rid =
    came.map (fetched c status) ++ if left.isEmpty then [gatheredAnswer c came] else []

section Runs

variable {c : Ctx} {status : JsVal} {emails : List JsVal} {σ : Config P}
variable {came : List (JsVal × TaskRows)} {left : List JsVal}

theorem Gathering.sameFor {τ : Config P} (gathers : Gathering c status emails σ came left)
    (same : SameFor c.rid σ τ) (later : σ.world.nextReq ≤ τ.world.nextReq) :
    Gathering c status emails τ came left where
  known := Nat.lt_of_lt_of_le gathers.known later
  split := gathers.split
  waits := same.inFlight.trans gathers.waits
  gathered := same.gathered.trans gathers.gathered
  history := same.history.trans gathers.history

theorem Fresh.history (fresh : Fresh σ) {rid : Nat} (new : σ.world.nextReq ≤ rid) :
    σ.world.history rid = [] := by
  refine List.filter_eq_nil_iff.mpr fun e he => ?_
  have old := fresh.logged e he
  simp only [decide_eq_true_eq]
  omega

theorem Fresh.inFlight (fresh : Fresh σ) {rid : Nat} (new : σ.world.nextReq ≤ rid) :
    OneRoof.inFlight rid σ = [] := by
  refine List.filter_eq_nil_iff.mpr fun p hp => ?_
  have old := fresh.pending p hp
  simp only [decide_eq_true_eq]
  omega

/-- When the request has arrived, nothing has come and everything is left. -/
theorem arrive_gathering {q : Request} {users : List JsVal} (fresh : Fresh σ)
    (asks : AsksUsers q users status) :
    Gathering (σ.world.context q) status (users.map fun user => user.get "email")
      (step (server P) (.arrive q) σ) [] (users.map fun user => user.get "email") := by
  have new := Nat.le_refl σ.world.nextReq
  have mine : (σ.world.context q).rid = σ.world.nextReq := rfl
  have none := fresh.inFlight new
  have blank := fresh.history new
  have empty := fresh.gathered _ new
  have asks' : AsksUsers (σ.world.context q).req users status := asks
  have known : (σ.world.context q).rid < (step (server P) (.arrive q) σ).world.nextReq := by
    rw [arrive_eq, enter_nextReq]
    exact Nat.lt_succ_self _
  by_cases nobody : users = []
  · subst nobody
    obtain ⟨pending, lists, logged⟩ :=
      enter_nobody (σ := ⟨σ.world.next, σ.pending⟩) asks' (fresh.answered new)
    rw [← arrive_eq] at pending lists logged
    refine ⟨known, List.Perm.refl _, ?_, (congrFun lists _).trans empty, ?_⟩
    · rw [inFlight, pending]
      exact List.Perm.of_eq none
    · rw [World.history, logged, List.filter_append]
      exact (congrArg (· ++ _) blank).trans (by simp [gatheredAnswer, Event.ctx, mine])
  · have entered := enter_tasks asks' nobody ⟨σ.world.next, σ.pending⟩
    rw [← arrive_eq] at entered
    rw [entered]
    refine ⟨Nat.lt_succ_self _, List.Perm.refl _, ?_, empty, ?_⟩
    · have old : σ.pending.filter (fun p => p.ctx.rid = (σ.world.context q).rid) = [] := none
      have own : ∀ p ∈ (users.map fun user => user.get "email").map
          (gathering (σ.world.context q) status users.length),
          decide (p.ctx.rid = (σ.world.context q).rid) = true := by
        intro p hp
        obtain ⟨email, -, rfl⟩ := List.mem_map.mp hp
        exact decide_eq_true rfl
      change (List.filter _ (σ.pending ++ _)).Perm _
      rw [List.filter_append, old, List.nil_append, List.filter_eq_self.mpr own, List.length_map]
    · rw [List.isEmpty_map, if_neg]
      · exact blank.trans (List.append_nil _).symm
      · simpa using nobody

theorem Gathering.unanswered (gathers : Gathering c status emails σ came left) (more : left ≠ []) :
    σ.world.log.any (Event.answers c.rid) = false := by
  have history : σ.world.history c.rid = came.map (fetched c status) := by
    simpa [List.isEmpty_iff, more] using gathers.history
  rw [List.any_eq_false]
  intro e he answers
  have own : e ∈ σ.world.history c.rid := by
    refine List.mem_filter.mpr ⟨he, ?_⟩
    cases e <;> simp_all [Event.answers, Event.ctx]
  rw [history] at own
  obtain ⟨f, -, rfl⟩ := List.mem_map.mp own
  cases answers

/-- A list that comes is added to the others; with the last one the answer is sent. -/
theorem Gathering.comes {before after : List JsVal} {email : JsVal} {rows : TaskRows}
    {db : Database P.collate} {rest : List (Pending Stmt Stmt.Reply Act Ctx)}
    (gathers : Gathering c status emails σ came (before ++ email :: after))
    (pending : (rest.filter fun p => p.ctx.rid = c.rid).Perm
      ((before ++ after).map (gathering c status emails.length))) :
    Gathering c status emails (enter (server P) c
        ((gathering c status emails.length email).k (some rows))
        ⟨σ.world.complete c (.getTasksForUser email status) rows db, rest⟩)
      (came ++ [(email, rows)]) (before ++ after) := by
  have total : came.length + (before.length + (after.length + 1)) = emails.length := by
    simpa using gathers.split.length_eq
  have one : (came.length + 1 = emails.length) ↔ (before ++ after).isEmpty = true := by
    rw [List.isEmpty_iff_length_eq_zero, List.length_append]
    omega
  have history : σ.world.history c.rid = came.map (fetched c status) := by
    simpa using gathers.history
  have unanswered := gathers.unanswered (by simp)
  have split : ((came ++ [(email, rows)]).map Prod.fst ++ (before ++ after)).Perm emails := by
    refine List.Perm.trans ?_ gathers.split
    simp only [List.map_append, List.map_cons, List.map_nil, List.append_assoc,
      List.singleton_append]
    exact List.perm_middle.symm.append_left _
  have lists : σ.world.gathered c.rid ++ [taskRowsJs rows] =
      (came ++ [(email, rows)]).map fun f => taskRowsJs f.2 := by
    rw [gathers.gathered, List.map_append]
    rfl
  have logged : (σ.world.log ++ [fetched c status (email, rows)]).filter
      (fun e => e.ctx.rid = c.rid) = (came ++ [(email, rows)]).map (fetched c status) := by
    have filtered : σ.world.log.filter (fun e => e.ctx.rid = c.rid) = _ := history
    rw [List.filter_append, filtered, List.map_append]
    simp [fetched, Event.ctx]
  have entered : enter (server P) c ((gathering c status emails.length email).k (some rows))
      ⟨σ.world.complete c (.getTasksForUser email status) rows db, rest⟩ =
      enter (server P) c (if came.length + 1 = emails.length then
          act (.sendGathered c.user) fun ok => if ok then done else throw else done)
        ⟨{ σ.world.complete c (.getTasksForUser email status) rows db with
            gathered := Function.update σ.world.gathered c.rid
              (σ.world.gathered c.rid ++ [taskRowsJs rows]) }, rest⟩ := by
    have count : (σ.world.gathered c.rid).length = came.length := by simp [gathers.gathered]
    simp [gathering, thenRun, enter, server, World.perform, World.complete, count]
  rw [entered]
  by_cases last : (before ++ after).isEmpty = true
  · rw [if_pos (one.mpr last)]
    have answers : enter (server P) c
        (act (.sendGathered c.user) fun ok => if ok then done else throw)
        ⟨{ σ.world.complete c (.getTasksForUser email status) rows db with
            gathered := Function.update σ.world.gathered c.rid
              (σ.world.gathered c.rid ++ [taskRowsJs rows]) }, rest⟩ = _ :=
      enter_send_open c (.json (.arr (Function.update σ.world.gathered c.rid
        (σ.world.gathered c.rid ++ [taskRowsJs rows]) c.rid))) c.user
        (by simp [World.complete, unanswered, Event.answers])
    rw [answers]
    refine ⟨gathers.known, split, pending, (Function.update_self _ _ _).trans lists, ?_⟩
    rw [if_pos last, World.history, List.filter_append]
    refine congrArg₂ (· ++ ·) logged ?_
    rw [Function.update_self, lists, List.filter_singleton]
    simp [gatheredAnswer, Event.ctx]
  · rw [if_neg (mt one.mp last)]
    refine ⟨gathers.known, split, pending, ?_, ?_⟩
    · exact (Function.update_self _ _ _).trans lists
    · rw [if_neg last, List.append_nil]
      exact logged

/-- A statement of the request that is settled is one of its queries. -/
theorem Gathering.settled {i : Nat} {p : Pending Stmt Stmt.Reply Act Ctx}
    (gathers : Gathering c status emails σ came left) (hp : σ.pending[i]? = some p)
    (own : p.ctx.rid = c.rid) :
    ∃ before email after, left = before ++ email :: after ∧
      p = gathering c status emails.length email ∧
      ((σ.pending.eraseIdx i).filter fun p => p.ctx.rid = c.rid).Perm
        ((before ++ after).map (gathering c status emails.length)) := by
  have mine : (p :: (σ.pending.eraseIdx i).filter fun p => p.ctx.rid = c.rid).Perm
      (left.map (gathering c status emails.length)) := by
    have filtered := (settled_perm hp).filter fun p => decide (p.ctx.rid = c.rid)
    rw [List.filter_cons_of_pos (by simpa using own)] at filtered
    exact filtered.trans gathers.waits
  obtain ⟨email, mem, rfl⟩ := List.mem_map.mp (mine.mem_iff.mp List.mem_cons_self)
  obtain ⟨before, after, rfl⟩ := List.append_of_mem mem
  refine ⟨before, email, after, rfl, rfl, ?_⟩
  rw [List.map_append, List.map_cons] at mine
  rw [List.map_append]
  exact (mine.trans List.perm_middle).cons_inv

theorem Gathering.settle (gathers : Gathering c status emails σ came left) (i : Nat) (lost : Bool) :
    (∃ s, .failed c s ∈ (settle (server P) i lost σ).world.log) ∨
      ∃ came' left', Gathering c status emails (Async.settle (server P) i lost σ) came' left' := by
  have later := step_nextReq (.settle i lost) σ
  rcases server_settle_cases i lost σ with same | ⟨p, hp, outcome⟩
  · rw [same]
    exact Or.inr ⟨came, left, gathers⟩
  by_cases own : p.ctx.rid = c.rid
  · obtain ⟨before, email, after, rfl, rfl, rest⟩ := gathers.settled hp own
    rcases outcome with ⟨hs, -⟩ | ⟨rows, db, -, -, hs⟩
    · refine Or.inl ⟨.getTasksForUser email status, ?_⟩
      rw [hs]
      exact (enter_log _ _ _).subset (List.mem_append_right _ (List.mem_singleton_self _))
    · rw [hs]
      exact Or.inr ⟨_, _, gathers.comes rest⟩
  · exact Or.inr ⟨came, left, gathers.sameFor (settle_sameFor hp own) later⟩

theorem Gathering.step (gathers : Gathering c status emails σ came left) (l : Label P) :
    (∃ s, .failed c s ∈ (step (server P) l σ).world.log) ∨
      ∃ came' left', Gathering c status emails (Async.step (server P) l σ) came' left' := by
  have later := step_nextReq l σ
  cases l with
  | arrive q =>
    have other : (σ.world.context q).rid ≠ c.rid := Nat.ne_of_gt gathers.known
    have same := enter_sameFor other (handler P (σ.world.context q)) ⟨σ.world.next, σ.pending⟩
    exact Or.inr ⟨came, left, gathers.sameFor ⟨same.inFlight, same.history, same.gathered⟩ later⟩
  | settle i lost => exact gathers.settle i lost
  | disturb db => exact Or.inr ⟨came, left, gathers.sameFor ⟨List.Perm.refl _, rfl, rfl⟩ later⟩

/-- Until a query fails, what has come and what is left are what was asked for. -/
theorem Gathering.run (gathers : Gathering c status emails σ came left) (ls : List (Label P)) :
    (∃ s, .failed c s ∈ (run (server P) ls σ).world.log) ∨
      ∃ came' left', Gathering c status emails (Async.run (server P) ls σ) came' left' := by
  have along : Along (server P) (fun _ _ => True) ls σ :=
    along_of_forall (fun _ => True) (fun _ _ => trivial) σ
  refine run_invariant (fun _ _ => True) (fun τ => (∃ s, .failed c s ∈ τ.world.log) ∨
    ∃ came' left', Gathering c status emails τ came' left') (fun τ l _ holds => ?_) along
    (Or.inr ⟨came, left, gathers⟩)
  rcases holds with ⟨s, failed⟩ | ⟨came', left', gathers'⟩
  · exact Or.inl ⟨s, (step_log l τ).subset failed⟩
  · exact gathers'.step l

/-- What is told apart by a key can be put in the order of the keys. -/
theorem exists_aligned {α β : Type} {l : List (α × β)} {keys : List α}
    (perm : (l.map Prod.fst).Perm keys) :
    ∃ values, values.length = keys.length ∧ l.Perm (keys.zip values) := by
  have keyed : List.Forall₂ (fun key (a : α × β) => key = a.1) (l.map Prod.fst) l :=
    List.forall₂_map_left_iff.mpr (List.forall₂_same.mpr fun _ _ => rfl)
  obtain ⟨aligned, each, back⟩ := List.perm_comp_forall₂ perm.symm keyed
  have fst : aligned.map Prod.fst = keys := by
    have equal : List.Forall₂ (· = ·) keys (aligned.map Prod.fst) :=
      List.forall₂_map_right_iff.mpr each
    rw [List.forall₂_eq_eq_eq] at equal
    exact equal.symm
  refine ⟨aligned.map Prod.snd, ?_, ?_⟩
  · rw [← fst, List.length_map, List.length_map]
  · exact List.zip_of_prod fst rfl ▸ back.symm

end Runs

/-- The queries of the users have completed in some order, and after the last of them the
request has answered, once, with their lists: one for each user, as it came. -/
def AnsweredAll (c : Ctx) (status : JsVal) (users : List JsVal) (results : List TaskRows)
    (history : List Event) : Prop :=
  results.length = users.length ∧
    ∃ served : List (JsVal × TaskRows), ∃ entries : List JsVal,
      served.Perm ((users.map fun user => user.get "email").zip results) ∧
      entries.Perm (results.map taskRowsJs) ∧
      history = served.map (fetched c status) ++ [.answered c (.json (.arr entries)) c.user]

/-- A request for the tasks of a list of users, served among any others while none of its
queries fails: as long as one of them is in flight it has not answered, and when none is it
has answered once, after the last of them, with the list of each user. -/
theorem tasks_gathered {σ : Config P} (reachable : Reachable P σ) {q : Request}
    {users : List JsVal} {status : JsVal} (asks : AsksUsers q users status) (ls : List (Label P))
    (succeeded : ∀ s, .failed (σ.world.context q) s ∉
      (run (server P) (.arrive q :: ls) σ).world.log) :
    (inFlight σ.world.nextReq (run (server P) (.arrive q :: ls) σ) ≠ [] →
      (run (server P) (.arrive q :: ls) σ).world.log.any (Event.answers σ.world.nextReq) =
        false) ∧
    (inFlight σ.world.nextReq (run (server P) (.arrive q :: ls) σ) = [] →
      ∃ results, AnsweredAll (σ.world.context q) status users results
        ((run (server P) (.arrive q :: ls) σ).world.history σ.world.nextReq)) := by
  have arrived := arrive_gathering reachable.fresh asks
  rw [run_cons] at succeeded ⊢
  rcases arrived.run ls with ⟨s, failed⟩ | ⟨came, left, gathers⟩
  · exact absurd failed (succeeded s)
  constructor
  · intro busy
    refine gathers.unanswered fun none => busy (List.Perm.eq_nil ?_)
    have waits := gathers.waits
    rw [none] at waits
    exact waits
  · intro idle
    have none : left = [] := by
      have waits := gathers.waits
      rw [show inFlight (σ.world.context q).rid _ = [] from idle] at waits
      exact List.map_eq_nil_iff.mp waits.symm.eq_nil
    subst none
    obtain ⟨results, length, served⟩ := exists_aligned (List.append_nil _ ▸ gathers.split)
    rw [List.length_map] at length
    refine ⟨results, length, came, _, served, ?_, gathers.history⟩
    have rows := served.map Prod.snd
    rw [List.map_snd_zip (by simp [length])] at rows
    have lists := rows.map taskRowsJs
    rw [List.map_map] at lists
    exact lists

def Event.isFailed : Event → Bool
  | .failed _ _ => true
  | _ => false

/-- Ann's open tasks are asked for twice, and Ben's in between. -/
def askTwice : Request where
  sid := 0
  route := .tasks
  body := .obj [("users", .arr [.obj [("email", .str "ann@x")], .obj [("email", .str "ben@x")],
    .obj [("email", .str "ann@x")]]), ("status", .str "incomplete")]

/-- The queries complete from the last to the first. -/
def lastFirst : List (Label samplePlatform) :=
  [.settle 2 false, .settle 1 false, .settle 0 false]

theorem tasks_gathered_sample :
    ∃ results, AnsweredAll ((run (server samplePlatform) signupThenTask
        (startUp samplePlatform)).world.context askTwice) (.str "incomplete")
      [.obj [("email", .str "ann@x")], .obj [("email", .str "ben@x")],
        .obj [("email", .str "ann@x")]] results
      ((run (server samplePlatform) (.arrive askTwice :: lastFirst) (run (server samplePlatform)
        signupThenTask (startUp samplePlatform))).world.history 2) := by
  have kept : (run (server samplePlatform) (.arrive askTwice :: lastFirst) (run
      (server samplePlatform) signupThenTask (startUp samplePlatform))).world.log.any
        Event.isFailed = false := by decide +kernel
  rw [List.any_eq_false] at kept
  refine (tasks_gathered ⟨signupThenTask, by decide, rfl⟩ ⟨rfl, rfl, rfl, ?_⟩ lastFirst
    fun s failed => kept _ failed rfl).2 ?_
  · decide
  · exact List.isEmpty_iff.mp (by decide +kernel)

end OneRoof
