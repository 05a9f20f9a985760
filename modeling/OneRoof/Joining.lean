import OneRoof.Housemates

/-!
# Joining a house from the feed page

`joinHouse` of `feed.js` sends the code that was entered and tells the user at once
that the house is joined. What the server makes of the code comes later, or never:
a refusal is only printed, and a user who is let in gets no answer at all. The page
and the server are put together here, with the requests that are on their way.
-/

namespace OneRoof

open Sql Async Async.Prog Prog

variable {P : Platform}

/-- The variables of the dialogue about the house of a new user. -/
structure Scope where
  modalHouseCode : Option String := none
  showFirstHouseQuestion : Bool := false
  showCreateHouse : Bool := false
  showHouseCodeEntry : Bool := false
  showHouseCodeWarning : Bool := false
  modalHouseCodeWarning : Bool := false
  showJoinSuccess : Bool := false
  showCode : Bool := false
  oneRoofOverview : Bool := false

namespace Scope

def backToModal1 (s : Scope) : Scope :=
  { s with showFirstHouseQuestion := true, showCreateHouse := false, showHouseCodeEntry := false }

def confirmExistingHouse (s : Scope) : Scope :=
  { s with showFirstHouseQuestion := false, showCreateHouse := false, showHouseCodeEntry := true }

def noHouse (s : Scope) : Scope :=
  { s with showFirstHouseQuestion := false, showCreateHouse := true, showHouseCodeEntry := false }

/-- The flags change when the request is sent, not when it is answered. -/
def joinHouse (s : Scope) : Scope × Option String :=
  match s.modalHouseCode with
  | some enteredCode =>
    ({ s with
        showHouseCodeEntry := false, showHouseCodeWarning := false, showJoinSuccess := true },
      some enteredCode)
  | none => ({ s with modalHouseCodeWarning := true }, none)

def oneOverview (s : Scope) : Scope :=
  { s with showJoinSuccess := false, showCode := false, oneRoofOverview := true }

end Scope

/-- The page of one session, the server, and what is between them. -/
structure Tab (P : Platform) where
  scope : Scope
  backend : Config P
  /-- The codes whose requests have not arrived. -/
  sent : List String
  /-- The numbers of the requests that have arrived. -/
  served : List Nat
  /-- The requests whose promises were rejected. -/
  rejected : List Nat
  /-- The last code that was entered. -/
  entered : Option String
  /-- How much had happened when it was entered. -/
  since : Nat

inductive Move (P : Platform) where
  | input (modalHouseCode : Option String)
  | backToModal1
  | confirmExistingHouse
  | noHouse
  | joinHouse
  | oneOverview
  | deliver (i : Nat)
  | receive (rid : Nat)
  | serve (l : Label P)

/-- What `$http.put` sends for a code. -/
def joinRequest (sid : Nat) (code : String) : Request where
  sid := sid
  route := .joinHouse
  body := .obj [("enterHouseCode", .str code)]

/-- An answer that rejects the promise of the request. -/
def Event.rejects (rid : Nat) : Event → Bool
  | .answered c answer _ => c.rid = rid && !answer.success
  | _ => false

def Tab.join (τ : Tab P) : Tab P :=
  match τ.scope.joinHouse with
  | (scope, some code) =>
    { τ with
      scope := scope, sent := τ.sent ++ [code], entered := some code,
      since := τ.backend.world.log.length }
  | (scope, none) => { τ with scope := scope }

/-- A request of the page arrives, not necessarily the oldest. -/
def Tab.deliver (sid : Nat) (i : Nat) (τ : Tab P) : Tab P :=
  match τ.sent[i]? with
  | some code =>
    { τ with
      backend := step (server P) (.arrive (joinRequest sid code)) τ.backend,
      sent := τ.sent.eraseIdx i, served := τ.backend.world.nextReq :: τ.served }
  | none => τ

/-- The answer of a request reaches the page, at any time after it was given. -/
def Tab.receive (rid : Nat) (τ : Tab P) : Tab P :=
  if rid ∈ τ.served ∧ τ.backend.world.log.any (Event.rejects rid) then
    { τ with rejected := rid :: τ.rejected }
  else τ

def Tab.move (sid : Nat) : Move P → Tab P → Tab P
  | .input code, τ => { τ with scope := { τ.scope with modalHouseCode := code } }
  | .backToModal1, τ => { τ with scope := τ.scope.backToModal1 }
  | .confirmExistingHouse, τ => { τ with scope := τ.scope.confirmExistingHouse }
  | .noHouse, τ => { τ with scope := τ.scope.noHouse }
  | .joinHouse, τ => τ.join
  | .oneOverview, τ => { τ with scope := τ.scope.oneOverview }
  | .deliver i, τ => τ.deliver sid i
  | .receive rid, τ => τ.receive rid
  | .serve l, τ => { τ with backend := step (server P) l τ.backend }

def Tab.run (sid : Nat) (ms : List (Move P)) (τ : Tab P) : Tab P :=
  ms.foldl (fun τ m => τ.move sid m) τ

/-- The page is opened while the server is in any state. -/
def Tab.opened (σ : Config P) : Tab P := ⟨{}, σ, [], [], [], none, 0⟩

/-- Every move of a run meets a condition on the state before it. -/
def Tab.Along (sid : Nat) (meets : Tab P → Move P → Prop) : List (Move P) → Tab P → Prop
  | [], _ => True
  | m :: ms, τ => meets τ m ∧ Tab.Along sid meets ms (τ.move sid m)

instance Tab.decidableAlong (sid : Nat) (meets : Tab P → Move P → Prop)
    [∀ τ m, Decidable (meets τ m)] :
    (ms : List (Move P)) → (τ : Tab P) → Decidable (Tab.Along sid meets ms τ)
  | [], _ => isTrue trivial
  | m :: ms, τ =>
    have := Tab.decidableAlong sid meets ms (τ.move sid m)
    inferInstanceAs (Decidable (meets τ m ∧ Tab.Along sid meets ms (τ.move sid m)))

theorem Tab.Along.mono {sid : Nat} {meets gives : Tab P → Move P → Prop}
    (enough : ∀ τ m, meets τ m → gives τ m) {ms : List (Move P)} {τ : Tab P}
    (along : Tab.Along sid meets ms τ) : Tab.Along sid gives ms τ := by
  induction ms generalizing τ with
  | nil => trivial
  | cons m ms ih => exact ⟨enough τ m along.1, ih along.2⟩

theorem Tab.run_invariant {sid : Nat} {meets : Tab P → Move P → Prop} (holds : Tab P → Prop)
    (preserved : ∀ τ m, meets τ m → holds τ → holds (τ.move sid m)) {ms : List (Move P)}
    {τ : Tab P} (along : Tab.Along sid meets ms τ) (start : holds τ) : holds (τ.run sid ms) := by
  induction ms generalizing τ with
  | nil => exact start
  | cons m ms ih => exact ih along.2 (preserved τ m along.1 start)

section Rejected

/-- The statement puts somebody into a house. -/
def Stmt.adds : Stmt → Bool
  | .addUserToHouse _ _ => true
  | _ => false

/-- The request has put somebody into a house. -/
def Event.joins (rid : Nat) : Event → Bool
  | .completed c s _ => c.rid = rid && s.adds
  | _ => false

/-- The answers of a request and the rows it has inserted, with those still to come. -/
def Decided (rid : Nat) (σ : Config P) : Prop :=
  Quota (fun (c : Ctx) s => decide (c.rid = rid) && Stmt.adds s)
    (fun c a => decide (c.rid = rid) && Act.ends a)
    (fun w : World P => w.log.countP (Event.answers rid) + w.log.countP (Event.joins rid)) σ

theorem perform_joins (rid : Nat) (c : Ctx) (a : Act) (w : World P) :
    ((server P).perform c a w).2.log.countP (Event.joins rid) =
      w.log.countP (Event.joins rid) := by
  have hl := perform_log c a w
  rcases hl with same | ⟨e, -, other, more⟩
  · exact congrArg _ same
  · have plain : e.joins rid = false := by
      cases e with
      | completed c s r => exact absurd rfl (other c s r)
      | _ => rfl
    change (World.perform c a w).2.log.countP _ = _
    rw [more, List.countP_append, List.countP_singleton, plain]
    rfl

theorem decided_metered (rid : Nat) :
    Metered (fun (c : Ctx) s => decide (c.rid = rid) && Stmt.adds s)
      (fun c a => decide (c.rid = rid) && Act.ends a) (server P) (fun _ _ => True)
      (fun w => w.log.countP (Event.answers rid) + w.log.countP (Event.joins rid)) where
  exec := by
    intro c s w r w' _ he
    have answers := (answering_metered (P := P) rid).exec trivial he
    have joins : w'.log.countP (Event.joins rid) ≤
        w.log.countP (Event.joins rid) + (decide (c.rid = rid) && s.adds).toNat := by
      obtain ⟨⟨r', db'⟩, -, hw⟩ := Option.map_eq_some_iff.mp he
      cases hw
      rw [List.countP_append, List.countP_singleton]
      by_cases marked : (Event.completed c s r).joins rid = true
      · rw [if_pos marked, show (decide (c.rid = rid) && s.adds) = true from marked]
        exact Nat.le_refl _
      · rw [if_neg marked]
        exact Nat.le_add_right _ _
    simp only [Bool.toNat_false] at answers
    omega
  refuse c s w := by simp [server, List.countP_append, Event.answers, Event.joins]
  perform c a w := by
    have answers := (answering_metered (P := P) rid).perform c a w
    have joins := perform_joins rid c a w
    omega
  first := by
    intro c a w marked none
    exact (answering_metered rid).first marked (by omega)

/-- Other requests neither answer for this one nor insert for it. -/
theorem decided_other {rid : Nat} {c : Ctx} (other : c.rid ≠ rid) (prog : Prog) :
    prog.Costs (fun (c : Ctx) s => decide (c.rid = rid) && Stmt.adds s)
      (fun c a => decide (c.rid = rid) && Act.ends a) c 0 0 :=
  costs_zero (issues_of_forall (fun s => by simp [other]) _)
    (acts_of_forall (fun a => by simp [other]) _)

/-- A `joinHouse` answers or inserts, but not both. -/
theorem joinHouse_costs {c : Ctx} (route : c.req.route = .joinHouse) :
    (handler P c).Costs (fun (c' : Ctx) s => decide (c'.rid = c.rid) && Stmt.adds s)
      (fun c' a => decide (c'.rid = c.rid) && Act.ends a) c 0 1 := by
  rw [handler, OneRoof.route, route]
  refine ⟨1, 0, by simp [Stmt.adds], fun r => ?_, trivial⟩
  cases r with
  | none => trivial
  | some rows =>
    refine Costs.recover (t := 0) ?_ trivial
    dsimp only
    split
    · cases c.user with
      | none => exact Nat.zero_le 1
      | some u => exact ⟨0, 0, by simp [Stmt.adds], fun _ => trivial, trivial⟩
    · simp only [Prog.send, Costs, Act.ends, decide_true, Bool.and_self, if_true]
      exact ⟨0, Nat.le_refl 1, trivial⟩

theorem step_decided {rid : Nat} (l : Label P) {σ : Config P} (old : rid < σ.world.nextReq)
    (decided : Decided rid σ) : Decided rid (step (server P) l σ) := by
  cases l with
  | arrive q =>
    obtain ⟨n, weighed, total⟩ := decided
    have other : (σ.world.context q).rid ≠ rid := Nat.ne_of_gt old
    rw [arrive_eq]
    exact enter_quota (decided_metered rid) _ ⟨σ.world.next, σ.pending⟩ (decided_other other _)
      weighed total
  | settle i lost => exact settle_quota (decided_metered rid) i lost σ (fun _ _ => trivial) decided
  | disturb db => exact decided

theorem arrive_decided {q : Request} (route : q.route = .joinHouse) {σ : Config P}
    (fresh : Fresh σ) : Decided σ.world.nextReq (step (server P) (.arrive q) σ) := by
  rw [arrive_eq]
  refine enter_quota (decided_metered _) (handler P _) ⟨σ.world.next, σ.pending⟩
    (joinHouse_costs (c := σ.world.context q) route) (weighed_zero fun p hp => ?_) ?_
  · have other : p.ctx.rid ≠ (σ.world.context q).rid := Nat.ne_of_lt (fresh.pending p hp)
    exact ⟨0, by simp [show p.ctx.rid ≠ σ.world.nextReq from other], fun r => decided_other other _⟩
  · have answers : σ.world.log.countP (Event.answers σ.world.nextReq) = 0 :=
      List.countP_eq_zero.mpr (List.any_eq_false.mp (fresh.answered (Nat.le_refl _)))
    have joins : σ.world.log.countP (Event.joins σ.world.nextReq) = 0 := by
      rw [List.countP_eq_zero]
      intro e he joins
      have old := fresh.logged e he
      cases e with
      | completed c s r =>
        simp only [Event.joins, Bool.and_eq_true, decide_eq_true_eq] at joins
        exact absurd joins.1 (Nat.ne_of_lt old)
      | _ => cases joins
    change σ.world.log.countP (Event.answers σ.world.nextReq) +
      σ.world.log.countP (Event.joins σ.world.nextReq) + 1 + 0 ≤ 1
    omega

/-- A rejected promise is of a request that has put nobody into a house. -/
def Tab.RejectsHonestly (τ : Tab P) : Prop :=
  ∀ rid ∈ τ.rejected, ∀ c houseId userId r,
    .completed c (.addUserToHouse houseId userId) r ∈ τ.backend.world.log → c.rid ≠ rid

/-- The requests of the page are decided one way, and the rejected ones are answered. -/
structure Tab.Kept (τ : Tab P) : Prop where
  fresh : Fresh τ.backend
  served : ∀ rid ∈ τ.served, rid < τ.backend.world.nextReq ∧ Decided rid τ.backend
  rejected : ∀ rid ∈ τ.rejected, rid ∈ τ.served ∧
    ∃ e ∈ τ.backend.world.log, Event.answers rid e = true

theorem Tab.Kept.honest {τ : Tab P} (kept : τ.Kept) : τ.RejectsHonestly := by
  rintro rid hr c houseId userId r joined rfl
  obtain ⟨mine, e, he, answers⟩ := kept.rejected _ hr
  obtain ⟨n, -, total⟩ := (kept.served _ mine).2
  have once : 0 < τ.backend.world.log.countP (Event.answers c.rid) :=
    List.countP_pos_iff.mpr ⟨e, he, answers⟩
  have twice : 0 < τ.backend.world.log.countP (Event.joins c.rid) :=
    List.countP_pos_iff.mpr ⟨_, joined, by simp [Event.joins, Stmt.adds]⟩
  have one : τ.backend.world.log.countP (Event.answers c.rid) +
    τ.backend.world.log.countP (Event.joins c.rid) + n ≤ 1 := total
  omega

/-- What the server does on its own keeps the promises as they are. -/
theorem Tab.Kept.serve {τ : Tab P} (kept : τ.Kept) (l : Label P) :
    Kept { τ with backend := step (server P) l τ.backend } := by
  refine ⟨step_fresh l _ kept.fresh, fun rid hr => ?_, fun rid hr => ?_⟩
  · obtain ⟨old, decided⟩ := kept.served rid hr
    exact ⟨Nat.lt_of_lt_of_le old (step_nextReq l _), step_decided l old decided⟩
  · obtain ⟨mine, e, he, answers⟩ := kept.rejected rid hr
    exact ⟨mine, e, (step_log l _).subset he, answers⟩

theorem Event.answers_of_rejects {rid : Nat} {e : Event} (rejects : e.rejects rid = true) :
    e.answers rid = true := by
  cases e with
  | answered c answer user => exact (Bool.and_eq_true_iff.mp rejects).1
  | _ => cases rejects

theorem Tab.Kept.move {sid : Nat} {τ : Tab P} (kept : τ.Kept) (m : Move P) :
    (τ.move sid m).Kept := by
  cases m with
  | joinHouse =>
    simp only [Tab.move, Tab.join]
    split <;> exact ⟨kept.fresh, kept.served, kept.rejected⟩
  | deliver i =>
    simp only [Tab.move, Tab.deliver]
    split
    · rename_i code _
      have moved := kept.serve (.arrive (joinRequest sid code))
      refine ⟨moved.fresh, fun rid hr => ?_, fun rid hr => ?_⟩
      · rcases List.mem_cons.mp hr with rfl | old
        · refine ⟨?_, arrive_decided rfl kept.fresh⟩
          rw [arrive_eq, enter_nextReq]
          exact Nat.lt_succ_self _
        · exact moved.served rid old
      · obtain ⟨mine, answered⟩ := moved.rejected rid hr
        exact ⟨List.mem_cons_of_mem _ mine, answered⟩
    · exact kept
  | receive rid =>
    simp only [Tab.move, Tab.receive]
    split
    · rename_i refused
      refine ⟨kept.fresh, kept.served, fun rid' hr => ?_⟩
      rcases List.mem_cons.mp hr with rfl | old
      · obtain ⟨e, he, rejects⟩ := List.any_eq_true.mp refused.2
        exact ⟨refused.1, e, he, Event.answers_of_rejects rejects⟩
      · exact kept.rejected rid' old
    · exact kept
  | serve l => exact kept.serve l
  | _ => exact ⟨kept.fresh, kept.served, kept.rejected⟩

theorem Tab.run_kept {sid : Nat} (ms : List (Move P)) {τ : Tab P} (kept : τ.Kept) :
    (τ.run sid ms).Kept := by
  induction ms generalizing τ with
  | nil => exact kept
  | cons m ms ih => exact ih (kept.move m)

end Rejected

/-- The house has the code that was entered. -/
def HasCode (collate : String → String) (code : String) (house : Row HouseCol) : Prop :=
  eqLit collate (house .house_code) (.str code) = some true

/-- A row links the user to a house with the code. -/
def Linked (collate : String → String) (t : Tables) (code : String) (n : Int) : Prop :=
  ∃ house ∈ t.house, HasCode collate code house ∧
    ∃ r ∈ t.houseUser, r .house_id = house .house_id ∧ r .user_id = .int n

/-- A `leaveHouse` of the user has run. -/
def Event.leaves (n : Int) : Event → Bool
  | .completed _ (.removeUserHouse _ user_id) _ => user_id = some n
  | _ => false

theorem Event.leaves_of_removes {n : Int} {c : Ctx} {s : Stmt} {r : s.Reply}
    {houseID : Option Int} (removes : s = .removeUserHouse houseID (some n)) :
    (Event.completed c s r).leaves n = true := by
  subst removes
  exact decide_eq_true rfl

namespace Tab

/-- The user has left a house since the last code was entered. -/
def Left (n : Int) (τ : Tab P) : Prop :=
  ∃ e ∈ τ.backend.world.log.drop τ.since, Event.leaves n e = true

/-- A request of the page is on its way, or has a statement in flight. -/
def InProgress (τ : Tab P) : Prop :=
  τ.sent ≠ [] ∨ ∃ p ∈ τ.backend.pending, p.ctx.rid ∈ τ.served

/-- Whoever is told to have joined a house is in the house. -/
def ShowsHonestly (n : Int) (τ : Tab P) : Prop :=
  ¬ τ.InProgress → ¬ τ.Left n → τ.scope.showJoinSuccess = true →
    ∃ code, τ.entered = some code ∧ Linked P.collate τ.backend.world.db.tables code n

/-- While the page shows success, the request for the last code arrives in a session of the
user, none of its statements is lost or refused, and there is a house with the code. -/
def JoinsWell (sid : Nat) (n : Int) (τ : Tab P) : Move P → Prop
  | .deliver i => τ.scope.showJoinSuccess = true → ∀ code, τ.entered = some code →
      τ.sent[i]? = some code → ∃ u, τ.backend.world.store sid = some u ∧ u.user_id = some n
  | .serve (.settle i lost) => τ.scope.showJoinSuccess = true → ∀ code, τ.entered = some code →
      ∀ p, τ.backend.pending[i]? = some p → p.ctx.rid ∈ τ.served →
        p.ctx.req = joinRequest sid code →
        lost = false ∧ exec P.collate p.stmt τ.backend.world.db ≠ none ∧
          (p.stmt.adds = true ∨
            ∃ house ∈ τ.backend.world.db.tables.house, HasCode P.collate code house)
  | .serve l => Label.own P l
  | _ => True

end Tab

/-- What a `joinHouse` does when the houses with the code are there. -/
def letIn (user : Option SessionUser) : Option (List (Row HouseCol)) → Prog :=
  thenCatch
    (fun rows => match rows.head? with
      | some row => withUser user fun u =>
          start (.addUserToHouse (cellInt (row .house_id)) u.user_id) done
      | none => Prog.send (.status 403 ("Hey Man, that house doesn't exist. " ++
          "Maybe create a new house or double check your code!")) user)
    done

theorem letIn_found {rows : List (Row HouseCol)} {row : Row HouseCol} {u : SessionUser}
    {houseId n : Int} (head : rows.head? = some row) (house : row .house_id = .int houseId)
    (id : u.user_id = some n) : letIn (some u) (some rows) =
      .issue (.addUserToHouse (some houseId) (some n)) (fun _ => .done) .done := by
  simp only [letIn, thenCatch, head, withUser, attempt, house, cellInt, id]
  rfl

/-- What is in flight for a `joinHouse` that has not looked the code up. -/
def lookingUp (c : Ctx) : Pending Stmt Stmt.Reply Act Ctx :=
  ⟨c, .getHouseWithCode (c.req.body.get "enterHouseCode"), letIn c.user⟩

/-- What is in flight for a `joinHouse` that has found the house. -/
def adding (c : Ctx) (houseId n : Int) : Pending Stmt Stmt.Reply Act Ctx :=
  ⟨c, .addUserToHouse (some houseId) (some n), fun _ => .done⟩

theorem handler_joinHouse {c : Ctx} (route : c.req.route = .joinHouse) :
    handler P c = .issue (lookingUp c).stmt (lookingUp c).k .done := by
  rw [handler, OneRoof.route, route]
  rfl

section Tables

variable {collate : String → String} {db db' : Database collate} {code : String} {n : Int}

/-- No statement takes a house away or changes its code. -/
theorem exec_houses {s : Stmt} {r : s.Reply} (he : exec collate s db = some (r, db')) :
    db.tables.house ⊆ db'.tables.house := by
  have effect := exec_effect he
  generalize db'.tables = t at effect ⊢
  generalize db'.next = m at effect
  cases effect with
  | createHouse row => exact List.subset_append_left _ _
  | _ => exact fun _ h => h

/-- Who is linked stays linked until the user leaves. -/
theorem Linked.exec {s : Stmt} {r : s.Reply} (he : exec collate s db = some (r, db'))
    (linked : Linked collate db.tables code n) :
    (∃ houseID, s = .removeUserHouse houseID (some n)) ∨ Linked collate db'.tables code n := by
  obtain ⟨house, hh, named, row, hr, same, own⟩ := linked
  have houses := exec_houses he hh
  by_cases leaver : ∃ houseID user_id, s = .removeUserHouse houseID user_id
  · obtain ⟨houseID, user_id, rfl⟩ := leaver
    by_cases mine : user_id = some n
    · exact Or.inl ⟨houseID, by rw [mine]⟩
    · refine Or.inr ⟨house, houses, named, row, ?_, same, own⟩
      obtain ⟨r', db'', he', ht⟩ := exec_removeUserHouse houseID user_id db
      cases he.symm.trans he'
      rw [ht]
      refine List.mem_filter.mpr ⟨hr, ?_⟩
      rw [Bool.not_eq_true', Bool.eq_false_iff]
      intro gone
      have users := (of_decide_eq_true gone).2
      rw [own] at users
      cases user_id with
      | none => simp [idLit, eqLit] at users
      | some m =>
        have : n = m := by simpa [idLit, eqLit] using users
        exact mine (by rw [this])
  · exact Or.inr ⟨house, houses, named, row,
      exec_members he (fun houseID user_id h => leaver ⟨houseID, user_id, h⟩) hr, same, own⟩

theorem exec_getHouseWithCode {houseCode : JsVal} (text : houseCode = .str code)
    (db : Database collate) : exec collate (.getHouseWithCode houseCode) db =
      some (select collate (.eq .house_code (.str code)) db.tables.house, db) := by
  rw [text]
  rfl

/-- Who is put into a house with the code is linked to it. -/
theorem linked_of_added {house : Row HouseCol} (hh : house ∈ db.tables.house)
    (named : HasCode collate code house) {houseId : Int} (id : house .house_id = .int houseId)
    (range : clip n = n) {r : Packet}
    (he : exec collate (.addUserToHouse (some houseId) (some n)) db = some (r, db')) :
    Linked collate db'.tables code n := by
  obtain ⟨row, filled, members⟩ := addUserToHouse_row he
  obtain ⟨k, hk, users⟩ := houseUserRow_user filled
  cases hk
  have homes := houseUserRow_house filled
  rw [clip_cell rfl db.sound.house_typed hh id] at homes
  rw [range] at users
  refine ⟨house, exec_houses he hh, named, row, ?_, homes.trans id.symm, users⟩
  rw [members]
  exact List.mem_append_right _ (List.mem_singleton_self row)

end Tables

section Shown

variable {sid : Nat} {n : Int} {code : String} {τ : Tab P}

/-- How far the request for a code is. -/
inductive Tab.Underway (sid : Nat) (n : Int) (τ : Tab P) (code : String) : Prop
  | sent (mem : code ∈ τ.sent)
  | looks {c : Ctx} {u : SessionUser} (req : c.req = joinRequest sid code)
      (mine : c.rid ∈ τ.served) (user : c.user = some u) (id : u.user_id = some n)
      (mem : lookingUp c ∈ τ.backend.pending)
  | adds {c : Ctx} {house : Row HouseCol} {houseId : Int} (req : c.req = joinRequest sid code)
      (mine : c.rid ∈ τ.served) (known : house ∈ τ.backend.world.db.tables.house)
      (named : HasCode P.collate code house) (id : house .house_id = .int houseId)
      (mem : adding c houseId n ∈ τ.backend.pending)
  | joined (linked : Linked P.collate τ.backend.world.db.tables code n)

/-- Where success is shown for a code, its request is underway, or the user has left. -/
structure Tab.Shown (sid : Nat) (n : Int) (τ : Tab P) : Prop where
  since : τ.since ≤ τ.backend.world.log.length
  shown : τ.scope.showJoinSuccess = true →
    ∃ code, τ.entered = some code ∧ (τ.Left n ∨ τ.Underway sid n code)

theorem Tab.Shown.honest (shown : τ.Shown sid n) : τ.ShowsHonestly n := by
  intro idle stays success
  obtain ⟨code, entered, left | underway⟩ := shown.shown success
  · exact absurd left stays
  · refine ⟨code, entered, ?_⟩
    cases underway with
    | sent mem => exact absurd (Or.inl (List.ne_nil_of_mem mem)) idle
    | looks req mine user id mem => exact absurd (Or.inr ⟨_, mem, mine⟩) idle
    | adds req mine known named id mem => exact absurd (Or.inr ⟨_, mem, mine⟩) idle
    | joined linked => exact linked

theorem Tab.Left.mono {σ : Config P} (grows : τ.backend.world.log <+: σ.world.log)
    (left : τ.Left n) : Left n { τ with backend := σ } := by
  obtain ⟨e, he, leaves⟩ := left
  exact ⟨e, (grows.drop τ.since).subset he, leaves⟩

/-- A `leaveHouse` that runs now has run since the code was entered. -/
theorem Tab.left_now {σ : Config P} {e : Event} (since : τ.since ≤ τ.backend.world.log.length)
    (grows : τ.backend.world.log ++ [e] <+: σ.world.log) (leaves : e.leaves n = true) :
    Left n { τ with backend := σ } := by
  refine ⟨e, (grows.drop τ.since).subset ?_, leaves⟩
  rw [List.drop_append_of_le_length since]
  exact List.mem_append_right _ (List.mem_singleton_self e)

theorem Tab.Underway.mono {τ' : Tab P} (underway : τ.Underway sid n code)
    (sent : code ∈ τ.sent → τ'.Underway sid n code) (served : τ.served ⊆ τ'.served)
    (pending : τ.backend.pending ⊆ τ'.backend.pending)
    (same : τ'.backend.world.db = τ.backend.world.db) : τ'.Underway sid n code := by
  cases underway with
  | sent mem => exact sent mem
  | looks req mine user id mem => exact .looks req (served mine) user id (pending mem)
  | adds req mine known named id mem =>
    exact .adds req (served mine) (same ▸ known) named id (pending mem)
  | joined linked => exact .joined (same ▸ linked)

/-- A request that arrives leaves the others where they are. -/
theorem Tab.Underway.arrive (underway : τ.Underway sid n code) (q : Request) :
    Underway sid n { τ with backend := step (server P) (.arrive q) τ.backend } code :=
  underway.mono (fun mem => .sent mem) (fun _ h => h) (fun _ h => mem_enter_old h) (enter_db _ _ _)

/-- The look-up of a code that some house has goes on to insert. -/
theorem found_underway {i : Nat} {c : Ctx} {u : SessionUser} (req : c.req = joinRequest sid code)
    (mine : c.rid ∈ τ.served) (user : c.user = some u) (id : u.user_id = some n)
    (waits : τ.backend.pending[i]? = some (lookingUp c))
    (found : ∃ house ∈ τ.backend.world.db.tables.house, HasCode P.collate code house) :
    Tab.Underway sid n { τ with backend := settle (server P) i false τ.backend } code := by
  have text : c.req.body.get "enterHouseCode" = .str code := by
    rw [req]
    rfl
  have completes := exec_getHouseWithCode text τ.backend.world.db
  generalize hr : select P.collate (.eq .house_code (.str code))
    τ.backend.world.db.tables.house = rows at completes
  obtain ⟨house, hh, named⟩ := found
  have some_row : rows ≠ [] := hr ▸
    List.ne_nil_of_mem (List.mem_filter.mpr ⟨hh, (Cond.hits_iff P.collate).mpr named⟩)
  obtain ⟨row, head⟩ := Option.ne_none_iff_exists'.mp (mt List.head?_eq_none_iff.mp some_row)
  have mem := List.mem_of_mem_head? (Option.mem_def.mpr head)
  obtain ⟨known, named⟩ := List.mem_filter.mp (hr ▸ mem)
  obtain ⟨houseId, hid⟩ := int_cell (c := HouseCol.house_id) rfl rfl
    τ.backend.world.db.sound.house_typed known
  have inserts : letIn c.user (some rows) = _ := user ▸ letIn_found head hid id
  have settled := (settle_at waits completes).trans
    (congrArg (fun prog => enter (server P) c prog _) inserts)
  have same : (settle (server P) i false τ.backend).world.db = τ.backend.world.db := by
    rw [settled]
    rfl
  refine .adds req mine (same ▸ known) ((Cond.hits_iff P.collate).mp named) hid ?_
  simp only [settled]
  exact List.mem_append_right _ (List.mem_singleton_self _)

theorem Tab.Underway.settle {i : Nat} {lost : Bool} (range : clip n = n)
    (since : τ.since ≤ τ.backend.world.log.length)
    (well : ∀ p, τ.backend.pending[i]? = some p → p.ctx.rid ∈ τ.served →
      p.ctx.req = joinRequest sid code →
      lost = false ∧ exec P.collate p.stmt τ.backend.world.db ≠ none ∧ (p.stmt.adds = true ∨
        ∃ house ∈ τ.backend.world.db.tables.house, HasCode P.collate code house))
    (underway : τ.Underway sid n code) :
    Left n { τ with backend := Async.settle (server P) i lost τ.backend } ∨
      Underway sid n { τ with backend := Async.settle (server P) i lost τ.backend } code := by
  rcases server_settle_cases i lost τ.backend with same | ⟨p, hp, outcome⟩
  · rw [same]
    exact Or.inr underway
  have kept := step_db_cases (.settle i lost) trivial τ.backend
  have houses : τ.backend.world.db.tables.house ⊆
      (Async.settle (server P) i lost τ.backend).world.db.tables.house := by
    rcases kept with same | ⟨j, p', r, -, -, he⟩
    · exact fun _ h => same ▸ h
    · exact exec_houses he
  cases underway with
  | sent mem => exact Or.inr (.sent mem)
  | @looks c u req mine user id mem =>
    rcases mem_or_erased hp mem with rfl | rest
    · obtain ⟨rfl, -, marked | found⟩ := well _ hp mine req
      · cases marked
      · exact Or.inr (found_underway req mine user id hp found)
    · exact Or.inr (.looks req mine user id (mem_settle_old hp rest))
  | @adds c house houseId req mine known named id mem =>
    rcases mem_or_erased hp mem with rfl | rest
    · obtain ⟨rfl, completes, -⟩ := well _ hp mine req
      rcases outcome with ⟨-, refused⟩ | ⟨r, db, -, he, hs⟩
      · exact absurd (refused rfl) completes
      · refine Or.inr (.joined ?_)
        simp only [hs, enter_db]
        exact linked_of_added known named id range he
    · exact Or.inr (.adds req mine (houses known) named id (mem_settle_old hp rest))
  | joined linked =>
    rcases outcome with ⟨hs, -⟩ | ⟨r, db, -, he, hs⟩
    · refine Or.inr (.joined ?_)
      simp only [hs, enter_db]
      exact linked
    · rcases linked.exec he with ⟨houseID, leaves⟩ | linked
      · refine Or.inl (Tab.left_now since (e := .completed p.ctx p.stmt r) ?_ ?_)
        · rw [hs]
          exact enter_log _ _ ⟨τ.backend.world.complete p.ctx p.stmt r db, _⟩
        · exact Event.leaves_of_removes leaves
      · refine Or.inr (.joined ?_)
        simp only [hs, enter_db]
        exact linked

/-- What happens on the page alone, without another code. -/
theorem Tab.Shown.page {scope : Scope} {rejected : List Nat} (shown : τ.Shown sid n)
    (only : scope.showJoinSuccess = true → τ.scope.showJoinSuccess = true) :
    Shown sid n { τ with scope := scope, rejected := rejected } := by
  refine ⟨shown.since, fun success => ?_⟩
  obtain ⟨code, entered, left | underway⟩ := shown.shown (only success)
  · exact ⟨code, entered, Or.inl left⟩
  · exact ⟨code, entered, Or.inr (underway.mono (fun mem => .sent mem) (fun _ h => h)
      (fun _ h => h) rfl)⟩

theorem Tab.Shown.serve (range : clip n = n) (shown : τ.Shown sid n) (l : Label P)
    (well : τ.JoinsWell sid n (.serve l)) :
    Shown sid n { τ with backend := step (server P) l τ.backend } := by
  have grows := step_log l τ.backend
  refine ⟨Nat.le_trans shown.since grows.length_le, fun success => ?_⟩
  obtain ⟨code, entered, left | underway⟩ := shown.shown success
  · exact ⟨code, entered, Or.inl (left.mono grows)⟩
  · refine ⟨code, entered, ?_⟩
    cases l with
    | arrive q => exact Or.inr (underway.arrive q)
    | settle i lost => exact underway.settle range shown.since (well success code entered)
    | disturb db => exact absurd well id

/-- A request of the page arrives in a session of the user. -/
theorem Tab.Shown.deliver (shown : τ.Shown sid n) {i : Nat} {sent : String}
    (waits : τ.sent[i]? = some sent) (well : τ.JoinsWell sid n (.deliver i)) :
    (τ.deliver sid i).Shown sid n := by
  have grows := step_log (.arrive (joinRequest sid sent)) τ.backend
  simp only [Tab.deliver, waits]
  refine ⟨Nat.le_trans shown.since grows.length_le, fun success => ?_⟩
  obtain ⟨code, entered, left | underway⟩ := shown.shown success
  · exact ⟨code, entered, Or.inl (left.mono grows)⟩
  · refine ⟨code, entered, Or.inr (underway.mono (fun mem => ?_)
      (fun _ h => List.mem_cons_of_mem _ h) (fun _ h => mem_enter_old h) (enter_db _ _ _))⟩
    rcases mem_or_erased waits mem with rfl | rest
    · obtain ⟨u, user, id⟩ := well success code entered waits
      refine .looks (c := τ.backend.world.context (joinRequest sid code)) rfl
        List.mem_cons_self user id ?_
      rw [arrive_eq, handler_joinHouse rfl]
      exact List.mem_append_right _ (List.mem_singleton_self _)
    · exact .sent rest

theorem Tab.Shown.move (range : clip n = n) (m : Move P) (well : τ.JoinsWell sid n m)
    (shown : τ.Shown sid n) : (τ.move sid m).Shown sid n := by
  cases m with
  | joinHouse =>
    simp only [Tab.move, Tab.join, Scope.joinHouse]
    cases τ.scope.modalHouseCode with
    | none => exact shown.page id
    | some code =>
      exact ⟨Nat.le_refl _, fun _ => ⟨code, rfl,
        Or.inr (.sent (List.mem_append_right _ (List.mem_singleton_self code)))⟩⟩
  | oneOverview => exact ⟨shown.since, fun success => nomatch success⟩
  | deliver i =>
    cases waits : τ.sent[i]? with
    | none =>
      simp only [Tab.move, Tab.deliver, waits]
      exact shown
    | some code => exact shown.deliver waits well
  | receive rid =>
    simp only [Tab.move, Tab.receive]
    split
    · exact shown.page id
    · exact shown
  | serve l => exact shown.serve range l well
  | _ => exact shown.page id

end Shown

/-- For a page that is opened in any reachable state, a promise is rejected only if its
request has put nobody into a house; and in every run that joins well, success is shown only
to a user who is in the house. -/
theorem join_agreement {σ : Config P} (reachable : Reachable P σ) (sid : Nat) {n : Int}
    {row : Row UserCol} (known : row ∈ σ.world.db.tables.user) (id : row .user_id = .int n)
    (ms : List (Move P)) :
    ((Tab.opened σ).run sid ms).RejectsHonestly ∧
      (Tab.Along sid (Tab.JoinsWell sid n) ms (Tab.opened σ) →
        ((Tab.opened σ).run sid ms).ShowsHonestly n) := by
  constructor
  · have start : (Tab.opened σ).Kept :=
      ⟨reachable.fresh, fun _ h => absurd h List.not_mem_nil, fun _ h => absurd h List.not_mem_nil⟩
    exact (Tab.run_kept ms start).honest
  · intro well
    have range : clip n = n := clip_cell rfl σ.world.db.sound.user_typed known id
    have start : (Tab.opened σ).Shown sid n := ⟨Nat.zero_le _, fun success => nomatch success⟩
    exact (Tab.run_invariant (Tab.Shown sid n) (fun _ m well shown => shown.move range m well)
      well start).honest

/-- The condition as a check on the state before a move. -/
def Tab.joinsWell (sid : Nat) (n : Int) (τ : Tab P) : Move P → Bool
  | .deliver _ => (τ.backend.world.store sid).any fun u => u.user_id = some n
  | .serve (.settle i lost) => !lost && τ.backend.pending[i]?.all fun p =>
      (exec P.collate p.stmt τ.backend.world.db).isSome && (p.stmt.adds || τ.entered.all fun code =>
        τ.backend.world.db.tables.house.any fun house =>
          eqLit P.collate (house .house_code) (.str code) = some true)
  | .serve (.arrive _) => true
  | .serve (.disturb _) => false
  | _ => true

theorem Tab.joinsWell_of_check {sid : Nat} {n : Int} {τ : Tab P} {m : Move P}
    (check : τ.joinsWell sid n m = true) : τ.JoinsWell sid n m := by
  cases m with
  | deliver i =>
    intro _ _ _ _
    obtain ⟨u, hu, id⟩ := (Option.any_eq_true _ _).mp check
    exact ⟨u, hu, of_decide_eq_true id⟩
  | serve l =>
    cases l with
    | settle i lost =>
      intro _ code entered p hp _ _
      obtain ⟨kept, check⟩ := Bool.and_eq_true_iff.mp check
      rw [hp, Option.all_some, entered, Option.all_some] at check
      obtain ⟨completes, found⟩ := Bool.and_eq_true_iff.mp check
      refine ⟨by simpa using kept, Option.isSome_iff_ne_none.mp completes, ?_⟩
      rcases Bool.or_eq_true_iff.mp found with adds | found
      · exact Or.inl adds
      · obtain ⟨house, hh, named⟩ := List.any_eq_true.mp found
        have named : eqLit P.collate (house .house_code) (.str code) = some true :=
          of_decide_eq_true named
        exact Or.inr ⟨house, hh, named⟩
    | arrive q => trivial
    | disturb db => cases check
  | _ => trivial

/-- Ann has left her house. -/
def annOutside : Config samplePlatform :=
  run (server samplePlatform) (annLeaves ++ [.settle 0 false]) (startUp samplePlatform)

/-- She enters a code on the feed page, and everything is served at once. -/
def annEntersCode (code : String) : List (Move samplePlatform) :=
  [.confirmExistingHouse, .input (some code), .joinHouse, .deliver 0, .serve (.settle 0 false)]

theorem annOutside_reachable : Reachable samplePlatform annOutside :=
  ⟨annLeaves ++ [.settle 0 false], by decide, rfl⟩

theorem join_sample :
    ((Tab.opened annOutside).run 0
      (annEntersCode "00000000" ++ [.serve (.settle 0 false)])).RejectsHonestly ∧
    ((Tab.opened annOutside).run 0
      (annEntersCode "00000000" ++ [.serve (.settle 0 false)])).ShowsHonestly 1 ∧
    ((Tab.opened annOutside).run 0
      (annEntersCode "00000000" ++ [.serve (.settle 0 false)])).scope.showJoinSuccess = true := by
  have known : ∃ row ∈ annOutside.world.db.tables.user, row .user_id = .int 1 := by decide +kernel
  obtain ⟨row, hr, id⟩ := known
  have agrees := join_agreement annOutside_reachable 0 hr id
    (annEntersCode "00000000" ++ [.serve (.settle 0 false)])
  have well : Tab.Along 0 (fun τ m => τ.joinsWell 0 1 m = true)
      (annEntersCode "00000000" ++ [.serve (.settle 0 false)]) (Tab.opened annOutside) := by
    decide +kernel
  exact ⟨agrees.1, agrees.2 (well.mono fun _ _ => Tab.joinsWell_of_check), by decide +kernel⟩

/-- Success is shown, nothing is underway, and no house has the code. -/
def Tab.showsWrongly (n : Int) (τ : Tab P) : Bool :=
  τ.sent.isEmpty && τ.backend.pending.isEmpty && τ.scope.showJoinSuccess &&
    !(τ.backend.world.log.drop τ.since).any (Event.leaves n) && τ.entered.all fun code =>
      τ.backend.world.db.tables.house.all fun house =>
        eqLit P.collate (house .house_code) (.str code) ≠ some true

theorem Tab.not_showsHonestly {n : Int} {τ : Tab P} (check : τ.showsWrongly n = true) :
    ¬ τ.ShowsHonestly n := by
  intro honest
  simp only [showsWrongly, Bool.and_eq_true, List.isEmpty_iff, Bool.not_eq_true'] at check
  obtain ⟨⟨⟨⟨sent, pending⟩, success⟩, stays⟩, nowhere⟩ := check
  obtain ⟨code, entered, house, hh, named, -⟩ := honest
    (by
      rintro (busy | ⟨p, hp, -⟩)
      · exact busy sent
      · rw [pending] at hp
        cases hp)
    (by
      rintro ⟨e, he, leaves⟩
      rw [List.any_eq_false] at stays
      exact stays e he leaves)
    success
  rw [entered, Option.all_some] at nowhere
  exact of_decide_eq_true (List.all_eq_true.mp nowhere house hh) named

theorem joined_nowhere :
    Reachable samplePlatform annOutside ∧
    (∃ row ∈ annOutside.world.db.tables.user, row .user_id = .int 1) ∧
    ¬ ((Tab.opened annOutside).run 0 (annEntersCode "12345678")).ShowsHonestly 1 :=
  ⟨annOutside_reachable, by decide +kernel, Tab.not_showsHonestly (by decide +kernel)⟩

end OneRoof
