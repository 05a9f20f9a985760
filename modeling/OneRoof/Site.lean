import OneRoof.Controller
import OneRoof.Lib.Clients
import OneRoof.Listings
import OneRoof.Page

/-!
# The browsers and the server

Any number of browsers run the controllers of their pages beside one server, each with its own
session, and other requests may arrive at any time. Whatever the users do and whatever comes
back, the requests of the pages are orderly: where a handler expects a scalar there is one, and
where it expects users there is a list of them. So the registers of the server's log say what
every answer holds.
-/

namespace OneRoof

open Sql Async

variable {P : Platform}

section Requests

/-- The body of a request as far as its handler reads it. What stands for a comment that is
deleted can be a whole response, and only its `comment_id` is looked at. -/
def Outgoing.read (o : Outgoing) : JsVal := match o.route with
  | .deleteComment => .obj [("comment_id", o.body.get "comment_id")]
  | _ => o.body

/-- What the handler takes from outside comes with the request. -/
def Outgoing.request (who : Nat) (env : Request) (o : Outgoing) : Request :=
  { env with sid := who, route := o.route, body := o.read, query := .obj [] }

/-- The handler does the same for the whole body. -/
theorem handler_read (rid who : Nat) (env : Request) (o : Outgoing) (user : Option SessionUser) :
    handler P ⟨rid, { o.request who env with body := o.body }, user⟩ =
      handler P ⟨rid, o.request who env, user⟩ := by
  obtain ⟨callback, route, body⟩ := o
  cases route <;> rfl

/-- All its properties are scalars. -/
def JsVal.Shallow (v : JsVal) : Prop := ∀ key, (v.get key).isScalar = true

/-- Its properties are scalars, but for lists of users. -/
def JsVal.Orderly (body : JsVal) : Prop := ∀ key, (body.get key).isScalar = true ∨
  key ∈ listFields ∧ ∃ users, body.get key = .arr users ∧ ∀ user ∈ users, user.Shallow

theorem JsVal.Shallow.orderly {v : JsVal} (shallow : v.Shallow) : v.Orderly :=
  fun key => Or.inl (shallow key)

theorem shallow_of_scalar {v : JsVal} (scalar : v.isScalar = true) : v.Shallow := fun key => by
  cases v <;> first | rfl | cases scalar

theorem arr_shallow (items : List JsVal) : (JsVal.arr items).Shallow := fun _ => rfl

theorem get_cons (f : String × JsVal) (fields : List (String × JsVal)) (key : String) :
    (JsVal.obj (f :: fields)).get key = if f.1 = key then f.2 else (JsVal.obj fields).get key := by
  simp only [JsVal.get, List.find?_cons]
  by_cases same : f.1 = key <;> simp [same]

theorem obj_shallow {fields : List (String × JsVal)} (scalars : ∀ f ∈ fields, f.2.isScalar = true) :
    (JsVal.obj fields).Shallow := by
  intro key
  induction fields with
  | nil => rfl
  | cons f fields ih =>
    obtain ⟨first, rest⟩ := List.forall_mem_cons.mp scalars
    rw [get_cons]
    split
    · exact first
    · exact ih rest

/-- A body is orderly when each of its fields is. -/
theorem obj_orderly {fields : List (String × JsVal)} (each : ∀ f ∈ fields,
      f.2.isScalar = true ∨
        f.1 ∈ listFields ∧ ∃ users, f.2 = .arr users ∧ ∀ user ∈ users, user.Shallow) :
    (JsVal.obj fields).Orderly := by
  intro key
  induction fields with
  | nil => exact Or.inl rfl
  | cons f fields ih =>
    obtain ⟨first, rest⟩ := List.forall_mem_cons.mp each
    rw [get_cons]
    split
    · rename_i same
      exact same ▸ first
    · exact ih rest

theorem payload_orderly {v : JsVal} (shallow : v.Shallow) : v.payload.Orderly := by
  cases v with
  | arr items => exact (arr_shallow items).orderly
  | obj fields => exact shallow.orderly
  | _ => exact obj_orderly fun f mem => absurd mem List.not_mem_nil

/-- A request that every handler can read. -/
structure Request.Orderly (q : Request) : Prop extends q.Tidy, q.NamesMembers

/-- The elements that a loop over a field reaches have scalar properties. -/
theorem JsVal.Orderly.lists {q : Request} (orderly : q.body.Orderly) (key field : String) :
    q.ListsScalars key field := by
  intro list looped o mem v given
  have shallow : o.Shallow := by
    rcases orderly key with scalar | ⟨-, users, same, each⟩
    · cases value : q.body.get key with
      | str s =>
        rw [value] at looped
        cases looped
        obtain ⟨c, -, rfl⟩ := List.mem_map.mp mem
        exact shallow_of_scalar rfl
      | arr items => rw [value] at scalar; cases scalar
      | obj fields => rw [value] at scalar; cases scalar
      | undefined => rw [value] at looped; cases looped
      | null => rw [value] at looped; cases looped
      | _ => rw [value] at looped; cases looped; exact absurd mem List.not_mem_nil
    · rw [same] at looped
      cases looped
      exact each o mem
  cases o <;> cases given <;> exact shallow field

/-- What a handler reads of an orderly body is orderly. -/
theorem read_orderly {o : Outgoing} (orderly : o.body.Orderly) : o.read.Orderly := by
  unfold Outgoing.read
  split
  · rcases orderly "comment_id" with scalar | ⟨list, -⟩
    · exact (obj_shallow (by simpa using scalar)).orderly
    · exact absurd list (by decide)
  · exact orderly

theorem request_orderly {o : Outgoing} (orderly : o.read.Orderly) (who : Nat) (env : Request) :
    (o.request who env).Orderly := by
  have body : (o.request who env).body.Orderly := orderly
  have plain : (o.request who env).Plain := by
    refine ⟨fun key single => ?_, fun key => rfl⟩
    rcases body key with scalar | ⟨list, -⟩
    · exact scalar
    · exact absurd list single
  exact ⟨⟨plain, body.lists _ _, body.lists _ _⟩, body.lists _ _⟩

end Requests

/-- The steps of a server that is sent orderly requests. -/
abbrev OrderlyStep (P : Platform) (l : Label P) : Prop := Admissible P Request.Orderly l

section Answers

variable {ls : List (Label P)} {l : Label P}

theorem OrderlyStep.tidy (orderly : OrderlyStep P l) : Admissible P Request.Tidy l :=
  ⟨orderly.own, fun q same => (orderly.asks q same).toTidy⟩

theorem OrderlyStep.names (orderly : OrderlyStep P l) : Admissible P Request.NamesMembers l :=
  ⟨orderly.own, fun q same => (orderly.asks q same).toNamesMembers⟩

theorem OrderlyStep.plain (orderly : OrderlyStep P l) : PlainLabel P l :=
  ⟨orderly.own, fun q same => (orderly.asks q same).toTidy.plain⟩

theorem run_nextReq (ls : List (Label P)) (σ : Config P) :
    σ.world.nextReq ≤ (run (server P) ls σ).world.nextReq := by
  induction ls generalizing σ with
  | nil => exact Nat.le_refl _
  | cons l ls ih => exact Nat.le_trans (step_nextReq l σ) (ih _)

/-- Two arrivals with one number are one arrival. -/
theorem arrival_unique {before before' after after' : List (Label P)} {q q' : Request}
    (split : before ++ .arrive q :: after = before' ++ .arrive q' :: after')
    (same : (run (server P) before (startUp P)).world.nextReq =
      (run (server P) before' (startUp P)).world.nextReq) : before = before' ∧ q = q' := by
  have later : ∀ {front : List (Label P)} {q : Request} {back : List (Label P)},
      (run (server P) front (startUp P)).world.nextReq <
        (run (server P) (front ++ .arrive q :: back) (startUp P)).world.nextReq := by
    intro front q back
    rw [run_append, run_cons]
    refine Nat.lt_of_lt_of_le ?_ (run_nextReq back _)
    rw [arrive_eq, enter_nextReq]
    exact Nat.lt_succ_self _
  rcases List.append_eq_append_iff.mp split with ⟨m, front, back⟩ | ⟨m, front, back⟩
  · cases m with
    | nil =>
      cases back
      exact ⟨(front.trans (List.append_nil _)).symm, rfl⟩
    | cons l m =>
      cases back
      rw [front] at same
      exact absurd same (Nat.ne_of_lt later)
  · cases m with
    | nil =>
      cases back
      exact ⟨front.trans (List.append_nil _), rfl⟩
    | cons l m =>
      cases back
      rw [front] at same
      exact absurd same.symm (Nat.ne_of_lt later)

end Answers

/-- A server that is sent orderly requests gets from one state to the other. -/
def Leads (σ σ' : Config P) : Prop :=
  ∃ ls, (∀ l ∈ ls, OrderlyStep P l) ∧ σ' = run (server P) ls σ

theorem Leads.refl (σ : Config P) : Leads σ σ :=
  ⟨[], fun _ mem => absurd mem List.not_mem_nil, rfl⟩

theorem Leads.trans {σ σ' σ'' : Config P} (first : Leads σ σ') (second : Leads σ' σ'') :
    Leads σ σ'' := by
  obtain ⟨ls, orderly, rfl⟩ := first
  obtain ⟨ls', orderly', rfl⟩ := second
  refine ⟨ls ++ ls', fun l mem => ?_, (run_append _ _ _ _).symm⟩
  rcases List.mem_append.mp mem with old | new
  · exact orderly l old
  · exact orderly' l new

theorem Leads.step {l : Label P} (orderly : OrderlyStep P l) (σ : Config P) :
    Leads σ (step (server P) l σ) :=
  ⟨[l], fun _ mem => List.mem_singleton.mp mem ▸ orderly, rfl⟩

theorem Leads.log {σ σ' : Config P} (leads : Leads σ σ') : σ.world.log <+: σ'.world.log := by
  obtain ⟨ls, -, rfl⟩ := leads
  exact run_log ls σ

/-- The body of an answer as a browser parses it: that of `undefined` is empty. -/
def Answer.data : Answer → Option JsVal
  | .json .undefined => some (.str "")
  | .json v => some v
  | _ => none

/-- What a browser hears when a value is sent. -/
def Hears (v data : JsVal) : Prop := v ≠ .undefined ∧ data = v ∨ v = .undefined ∧ data = .str ""

/-- The request whose answer a callback reads. -/
def Call.route : Call → Route
  | .startUp | .initialTasks | .showPersonal | .showHistory | .showEveryone => .tasks
  | .addedTask | .completedTask => .tasks
  | .addTask => .addTask
  | .completeTask => .deleteTask
  | .getComment => .getComment
  | .addComment => .addComment
  | .deleteComment => .deleteComment
  | .createGroup => .createGroup
  | .joinGroup => .joinGroup

def Callback.route : Callback → Option Route
  | .feed call => some call.route
  | .house => some .house
  | .houseDetails => some .houseDetails
  | .getUsers => some .getUsers
  | .getGroups => some .getGroups
  | .user => some .feed
  | .createHouse => some .createHouse
  | .log => none

/-- A request of this session arrived under this number. -/
def ServedAs (who : Nat) (σ : Config P) (rid : Nat) (o : Outgoing) : Prop :=
  ∃ σ₀ env, Leads (startUp P) σ₀ ∧ σ₀.world.nextReq = rid ∧
    Leads (step (server P) (.arrive (o.request who env)) σ₀) σ

/-- An answer that was given to a request of this session. -/
def AnswerOf (who : Nat) (σ : Config P) (o : Outgoing) (c : Ctx) (v : JsVal) : Prop :=
  (∃ user, .answered c (.json v) user ∈ σ.world.log) ∧ ∃ env, c.req = o.request who env

/-- A request of a browser comes with the number of the controller that sent it. -/
def backend (P : Platform) :
    Clients.Service (Config P) (Label P) (Nat × Outgoing) Request JsVal Nat where
  step l σ := step (server P) l σ
  take who env o σ :=
    (step (server P) (.arrive (o.2.request who env)) σ, σ.world.nextReq)
  reply rid σ := (σ.world.reply rid).bind Answer.data

/-- What reaches a browser for a request was given as the answer to this request. -/
theorem served_answer {σ : Config P} {who rid : Nat} {o : Outgoing} {data : JsVal}
    (served : ServedAs who σ rid o)
    (replied : (σ.world.reply rid).bind Answer.data = some data) :
    ∃ c v, AnswerOf who σ o c v ∧ Hears v data := by
  obtain ⟨_, env, ⟨before, -, rfl⟩, rfl, ⟨after, -, rfl⟩⟩ := served
  obtain ⟨answer, replies, parsed⟩ := Option.bind_eq_some_iff.mp replied
  obtain ⟨c, user, logged, number⟩ := reply_mem replies
  rw [← run_cons, ← run_append] at logged
  obtain ⟨before', q, after', split, rfl⟩ := occurs_arrived (Or.inr ⟨_, logged, rfl⟩)
  obtain ⟨rfl, rfl⟩ := arrival_unique split number.symm
  rw [run_append, run_cons] at logged
  cases answer with
  | json v =>
    refine ⟨_, v, ⟨⟨user, logged⟩, env, rfl⟩, ?_⟩
    cases v with
    | undefined => exact Or.inr ⟨rfl, (Option.some.inj parsed).symm⟩
    | _ => exact Or.inl ⟨by simp, (Option.some.inj parsed).symm⟩
  | _ => cases parsed

def browsing : Clients.Client Browser Deed (Nat × Outgoing) JsVal :=
  ⟨Browser.input, Browser.answered⟩

abbrev Site (P : Platform) := Clients.Net (Config P) Browser (Nat × Outgoing) Nat

abbrev SiteMove (P : Platform) := Clients.Move (Label P) Request Deed

namespace Site

def move (m : SiteMove P) (site : Site P) : Site P := Clients.Net.move browsing (backend P) m site

def run (ms : List (SiteMove P)) (site : Site P) : Site P := Traces.run move ms site

/-- The server has just been started, and a browser is open for each of these sessions. -/
def opened (P : Platform) (sessions : List Nat) : Site P :=
  ⟨startUp P, sessions.map fun who => ⟨who, {}, [], []⟩⟩

end Site

end OneRoof
