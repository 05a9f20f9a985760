import OneRoof.Membership

/-!
# Leaving a house

`leaveHouse` deletes by the house that the session remembers, not by the rows there
are, and answers with success whatever it has deleted. What is in flight for it
is one statement, and its answer is the only one the request ever gives.
-/

namespace OneRoof

open Sql Async Async.Prog Prog

variable {P : Platform}

section Answering

/-- The answers of one request, and those it has still to give. -/
def Answering (rid : Nat) (σ : Config P) : Prop :=
  Quota (fun (_ : Ctx) (_ : Stmt) => false) (fun c a => decide (c.rid = rid) && Act.ends a)
    (fun w : World P => w.log.countP (Event.answers rid)) σ

theorem answering_metered (rid : Nat) : Metered (fun (_ : Ctx) (_ : Stmt) => false)
    (fun c a => decide (c.rid = rid) && Act.ends a) (server P) (fun _ _ => True)
    (fun w => w.log.countP (Event.answers rid)) where
  exec := by
    intro c s w r w' _ he
    obtain ⟨⟨r', db'⟩, -, hw⟩ := Option.map_eq_some_iff.mp he
    cases hw
    simp [List.countP_append, Event.answers]
  refuse c s w := by simp [server, List.countP_append, Event.answers]
  perform c a w := by
    have sends : ∀ answer user, (w.answer c answer user).2.log.countP (Event.answers rid) ≤
        w.log.countP (Event.answers rid) + (decide (c.rid = rid)).toNat := by
      intro answer user
      unfold World.answer
      split
      · exact Nat.le_add_right _ _
      · simp only [List.countP_append, List.countP_singleton, Event.answers]
        by_cases same : c.rid = rid <;> simp [same]
    cases a with
    | send answer user => simpa [Act.ends, server, World.perform] using sends answer user
    | sendGathered user => simpa [Act.ends, server, World.perform] using sends _ user
    | compareSync hash => simp [server, World.perform, List.countP_append, Event.answers]
    | push entry total => exact Nat.le_add_right _ _
  first := by
    intro c a w marked none
    obtain ⟨same, ends⟩ := Bool.and_eq_true_iff.mp marked
    have unanswered : w.log.any (Event.answers c.rid) = false := by
      rw [of_decide_eq_true same, List.any_eq_false]
      exact List.countP_eq_zero.mp none
    cases a with
    | send answer user => simp [server, World.perform, World.answer, unanswered]
    | sendGathered user => simp [server, World.perform, World.answer, unanswered]
    | compareSync hash => cases ends
    | push entry total => cases ends

/-- Other requests give no answers of this one. -/
theorem costs_other {rid : Nat} {c : Ctx} (other : c.rid ≠ rid) (prog : Prog) :
    prog.Costs (fun (_ : Ctx) _ => false) (fun c a => decide (c.rid = rid) && Act.ends a) c 0 0 :=
  costs_zero (issues_of_forall (fun _ => rfl) _)
    (acts_of_forall (fun a => by simp [other]) _)

theorem leaveHouse_costs {c : Ctx} (route : c.req.route = .leaveHouse) :
    (handler P c).Costs (fun (_ : Ctx) _ => false)
      (fun c' a => decide (c'.rid = c.rid) && Act.ends a) c 0 1 := by
  have sends : ∀ t answer user, (Prog.send answer user).Costs (fun (_ : Ctx) _ => false)
      (fun c' a => decide (c'.rid = c.rid) && Act.ends a) c t 1 := by
    intro t answer user
    simp only [Prog.send, Costs, Act.ends, decide_true, Bool.and_self, if_true]
    exact ⟨0, Nat.le_refl 1, trivial⟩
  rw [handler, OneRoof.route, route]
  refine Costs.recover (t := 1) ?_ (sends 0 _ _)
  cases c.user with
  | none => exact Nat.le_refl 1
  | some u =>
    refine ⟨1, 0, Nat.le_refl 1, fun r => ?_, trivial⟩
    cases r with
    | none => exact Nat.zero_le 1
    | some r => exact sends 0 _ _

end Answering

/-- The session user without a house. -/
def SessionUser.homeless (u : SessionUser) : SessionUser := { u with houseID := none }

/-- What is in flight for a `leaveHouse`. -/
def leaving (c : Ctx) (u : SessionUser) : Pending Stmt Stmt.Reply Act Ctx :=
  ⟨c, .removeUserHouse u.houseID u.user_id,
    thenRun fun _ => Prog.send (.json u.homeless.js) (some u.homeless)⟩

/-- Every `leaveHouse` in flight waits for its one statement and has not answered. -/
structure Orderly (σ : Config P) : Prop where
  fresh : Fresh σ
  leaves : ∀ p ∈ σ.pending, p.ctx.req.route = .leaveHouse →
    (∃ u, p.ctx.user = some u ∧ p = leaving p.ctx u) ∧ Answering p.ctx.rid σ

theorem arrive_orderly (q : Request) (σ : Config P) (orderly : Orderly σ) :
    Orderly (step (server P) (.arrive q) σ) := by
  have fresh := step_fresh (.arrive q) σ orderly.fresh
  refine ⟨fresh, ?_⟩
  rw [arrive_eq]
  obtain ⟨new, pending, ctx⟩ := enter_pending (server P) (σ.world.context q)
    (handler P (σ.world.context q)) ⟨σ.world.next, σ.pending⟩
  intro p hp route
  rw [pending] at hp
  rcases List.mem_append.mp hp with old | isNew
  · obtain ⟨shape, n, weighed, total⟩ := orderly.leaves p old route
    have other : (σ.world.context q).rid ≠ p.ctx.rid :=
      Nat.ne_of_gt (orderly.fresh.pending p old)
    exact ⟨shape, enter_quota (answering_metered _) _ ⟨σ.world.next, σ.pending⟩
      (costs_other other _) weighed total⟩
  · have hc := ctx p isNew
    rw [hc] at route ⊢
    constructor
    · cases hu : (σ.world.context q).user with
      | none =>
        have refused : handler P (σ.world.context q) =
            Prog.send (.status 500 "Internal Server Error") (σ.world.context q).user := by
          simp only [handler, OneRoof.route, route, leaveHouse, withUser, hu]
          rfl
        rw [refused, (enter_send _ _ _ _).1] at pending
        have none : new = [] := by simpa using pending
        rw [none] at isNew
        cases isNew
      | some u =>
        have waits : handler P (σ.world.context q) =
            .issue (leaving (σ.world.context q) u).stmt (leaving (σ.world.context q) u).k
              .done := by
          simp only [handler, OneRoof.route, route, leaveHouse, withUser, hu]
          rfl
        rw [waits] at pending
        have one : new = [leaving (σ.world.context q) u] := by
          simpa [enter, leaving] using pending.symm
        rw [one] at isNew
        exact ⟨u, rfl, List.mem_singleton.mp isNew⟩
    · refine enter_quota (answering_metered _) (handler P _) ⟨σ.world.next, σ.pending⟩
        (leaveHouse_costs route) (weighed_zero fun p' hp' => ?_) ?_
      · have other : p'.ctx.rid ≠ (σ.world.context q).rid :=
          Nat.ne_of_lt (orderly.fresh.pending p' hp')
        exact ⟨0, Nat.le_refl 0, fun r => costs_other other _⟩
      · have none : σ.world.log.any (Event.answers (σ.world.context q).rid) = false :=
          orderly.fresh.answered (Nat.le_refl _)
        rw [List.any_eq_false] at none
        change σ.world.log.countP _ + 1 + 0 ≤ 1
        rw [List.countP_eq_zero.mpr none]

theorem settle_orderly (i : Nat) (lost : Bool) (σ : Config P) (orderly : Orderly σ) :
    Orderly (settle (server P) i lost σ) := by
  refine ⟨step_fresh (.settle i lost) σ orderly.fresh, fun p hp route => ?_⟩
  have kept : ∀ p ∈ σ.pending, p.ctx.req.route = .leaveHouse →
      Answering p.ctx.rid (settle (server P) i lost σ) := fun p hp route =>
    settle_quota (answering_metered _) i lost σ (fun _ _ => trivial) (orderly.leaves p hp route).2
  rcases server_settle_cases i lost σ with same | ⟨p', hp', outcome⟩
  · rw [same] at hp
    exact ⟨(orderly.leaves p hp route).1, kept p hp route⟩
  have mem := List.mem_of_getElem? hp'
  obtain ⟨r, w, hs⟩ : ∃ r w, settle (server P) i lost σ =
      enter (server P) p'.ctx (p'.k r) ⟨w, σ.pending.eraseIdx i⟩ := by
    rcases outcome with ⟨hs, -⟩ | ⟨r, db, -, -, hs⟩
    · exact ⟨_, _, hs⟩
    · exact ⟨_, _, hs⟩
  obtain ⟨new, pending, ctx⟩ := enter_pending (server P) p'.ctx (p'.k r) ⟨w, σ.pending.eraseIdx i⟩
  rw [hs, pending] at hp
  rcases List.mem_append.mp hp with old | isNew
  · have old := List.mem_of_mem_eraseIdx old
    exact ⟨(orderly.leaves p old route).1, kept p old route⟩
  · have hc := ctx p isNew
    rw [hc] at route
    obtain ⟨⟨u, -, shape⟩, -⟩ := orderly.leaves p' mem route
    have issuesNone : (enter (server P) p'.ctx (p'.k r) ⟨w, σ.pending.eraseIdx i⟩).pending =
        σ.pending.eraseIdx i := by
      generalize p'.ctx = c at shape
      subst shape
      cases r with
      | none => rfl
      | some r => exact (enter_send _ _ _ _).1
    rw [issuesNone] at pending
    have none : new = [] := by simpa using pending
    rw [none] at isNew
    cases isNew

theorem step_orderly (l : Label P) (σ : Config P) (orderly : Orderly σ) :
    Orderly (step (server P) l σ) := by
  cases l with
  | arrive q => exact arrive_orderly q σ orderly
  | settle i lost => exact settle_orderly i lost σ orderly
  | disturb db => exact ⟨step_fresh (.disturb db) σ orderly.fresh, orderly.leaves⟩

theorem idle_orderly (db : Database P.collate) (store : Nat → Option SessionUser) :
    Orderly (⟨World.fresh P db store, []⟩ : Config P) :=
  ⟨⟨fun _ hp => absurd hp List.not_mem_nil, fun _ _ => rfl,
    fun _ he => absurd he List.not_mem_nil⟩, fun _ hp => absurd hp List.not_mem_nil⟩

theorem Reachable.orderly {σ : Config P} (reachable : Reachable P σ) : Orderly σ := by
  obtain ⟨ls, -, rfl⟩ := reachable
  exact run_invariant _ Orderly (fun σ l _ => step_orderly l σ)
    (along_of_forall (fun _ => True) (fun _ _ => trivial) _) (idle_orderly _ _)

/-- A request that is still to answer has not answered. -/
theorem Orderly.unanswered {σ : Config P} (orderly : Orderly σ) {i : Nat} {c : Ctx}
    {u : SessionUser} (waits : σ.pending[i]? = some (leaving c u))
    (route : c.req.route = .leaveHouse) : σ.world.log.any (Event.answers c.rid) = false := by
  obtain ⟨n, weighed, total⟩ := (orderly.leaves _ (List.mem_of_getElem? waits) route).2
  obtain ⟨a, m, ⟨l, sum, callbacks⟩, -, hn⟩ := weighed.erase waits
  have answers := callbacks (some (⟨0, 0⟩ : Packet))
  simp only [leaving, thenRun, Prog.send, Costs, Act.ends, decide_true, Bool.and_self,
    if_true] at answers
  obtain ⟨l', one, -⟩ := answers
  rw [List.any_eq_false]
  refine List.countP_eq_zero.mp ?_
  have counted : σ.world.log.countP (Event.answers c.rid) + n ≤ 1 := total
  simp only at sum
  omega

/-- The world after the statement of a `leaveHouse` has completed and it has answered. -/
def World.left (w : World P) (c : Ctx) (u : SessionUser) (packet : Packet)
    (db : Database P.collate) : World P where
  db := db
  store := Function.update w.store c.req.sid (some u.homeless)
  log := w.log ++ [.completed c (.removeUserHouse u.houseID u.user_id) packet] ++
    [.answered c (.json u.homeless.js) (some u.homeless)]
  gathered := w.gathered
  nextReq := w.nextReq

/-- The rows go that have the house and the user of the session, and the session that
is saved with the answer has no house. -/
theorem settle_leaving {σ : Config P} (orderly : Orderly σ) {i : Nat} {c : Ctx} {u : SessionUser}
    (waits : σ.pending[i]? = some (leaving c u)) (route : c.req.route = .leaveHouse) :
    ∃ packet db', db'.tables.houseUser = σ.world.db.tables.houseUser.filter
        (fun r => !leaves P.collate u.houseID u.user_id r) ∧
      settle (server P) i false σ = ⟨σ.world.left c u packet db', σ.pending.eraseIdx i⟩ := by
  obtain ⟨r, db', he, ht⟩ := exec_removeUserHouse u.houseID u.user_id σ.world.db
  refine ⟨r, db', by rw [ht], ?_⟩
  have unanswered : (σ.world.complete c (.removeUserHouse u.houseID u.user_id) r db').log.any
      (Event.answers c.rid) = false := by
    simp [World.complete, Event.answers, orderly.unanswered waits route]
  rw [settle_at waits he]
  simp only [thenRun, Prog.send, enter, server, World.perform, World.answer, unanswered,
    Bool.false_eq_true, if_false, if_true]
  rfl

/-- The user is in no house any more, nobody else has moved, and the session has no
house either. -/
structure LeftHouse (P : Platform) (c : Ctx) (u : SessionUser) (w w' : World P) : Prop where
  gone : ∀ r ∈ w'.db.tables.houseUser, eqLit P.collate (r .user_id) (idLit u.user_id) ≠ some true
  others : (w'.db.tables.houseUser.filter fun r =>
      eqLit P.collate (r .user_id) (idLit u.user_id) ≠ some true) =
    w.db.tables.houseUser.filter fun r => eqLit P.collate (r .user_id) (idLit u.user_id) ≠ some true
  session : ∃ u', w'.store c.req.sid = some u' ∧ u'.houseID = none

/-- When its one statement completes and it answers with success, the user has left. -/
def LeavesClean (σ : Config P) (i : Nat) (c : Ctx) (u : SessionUser) : Prop :=
  ∀ answer user, .answered c answer user ∈ (settle (server P) i false σ).world.log →
    answer.success = true → LeftHouse P c u σ.world (settle (server P) i false σ).world

section Clean

variable {σ : Config P} {i : Nat} {p : Pending Stmt Stmt.Reply Act Ctx} {u : SessionUser}

theorem clean_of_known (orderly : Orderly σ) (waits : σ.pending[i]? = some p)
    (route : p.ctx.req.route = .leaveHouse) (user : p.ctx.user = some u)
    (known : ∀ r ∈ σ.world.db.tables.houseUser,
      eqLit P.collate (r .user_id) (idLit u.user_id) = some true →
      eqLit P.collate (r .house_id) (idLit u.houseID) = some true) :
    LeavesClean σ i p.ctx u := by
  obtain ⟨⟨u', user', shape⟩, -⟩ := orderly.leaves p (List.mem_of_getElem? waits) route
  cases user.symm.trans user'
  generalize p.ctx = c at shape route user
  subst shape
  obtain ⟨packet, db', ht, hs⟩ := settle_leaving orderly waits route
  have moved : (σ.world.left c u packet db').db = db' := rfl
  intro _ _ _ _
  rw [hs]
  refine ⟨fun r hr own => ?_, ?_, u.homeless, Function.update_self _ _ _, rfl⟩
  · rw [moved, ht] at hr
    obtain ⟨hr, stays⟩ := List.mem_filter.mp hr
    simp [leaves, known r hr own, own] at stays
  · rw [moved, ht, List.filter_filter]
    refine List.filter_congr fun r _ => ?_
    by_cases own : eqLit P.collate (r .user_id) (idLit u.user_id) = some true <;>
      simp [leaves, own]

/-- A row that names another house than the session stays. -/
theorem not_clean_of_elsewhere (orderly : Orderly σ) (waits : σ.pending[i]? = some p)
    (route : p.ctx.req.route = .leaveHouse) (user : p.ctx.user = some u) {r : Row HouseUserCol}
    (hr : r ∈ σ.world.db.tables.houseUser)
    (own : eqLit P.collate (r .user_id) (idLit u.user_id) = some true)
    (elsewhere : eqLit P.collate (r .house_id) (idLit u.houseID) ≠ some true) :
    ¬ LeavesClean σ i p.ctx u := by
  obtain ⟨⟨u', user', shape⟩, -⟩ := orderly.leaves p (List.mem_of_getElem? waits) route
  cases user.symm.trans user'
  generalize p.ctx = c at shape route user
  subst shape
  obtain ⟨packet, db', ht, hs⟩ := settle_leaving orderly waits route
  have moved : (σ.world.left c u packet db').db = db' := rfl
  intro clean
  rw [LeavesClean, hs] at clean
  refine (clean (.json u.homeless.js) (some u.homeless) (by simp [World.left]) rfl).gone r ?_ own
  rw [moved, ht]
  exact List.mem_filter.mpr ⟨hr, by simp [leaves, elsewhere]⟩

/-- In every reachable state, a `leaveHouse` in flight leaves cleanly exactly when every row
of its user names the house that the session remembers. -/
theorem leavesClean_iff (reachable : Reachable P σ) (waits : σ.pending[i]? = some p)
    (route : p.ctx.req.route = .leaveHouse) (user : p.ctx.user = some u) :
    LeavesClean σ i p.ctx u ↔ ∀ r ∈ σ.world.db.tables.houseUser,
      eqLit P.collate (r .user_id) (idLit u.user_id) = some true →
      eqLit P.collate (r .house_id) (idLit u.houseID) = some true := by
  refine ⟨fun clean r hr own => ?_, clean_of_known reachable.orderly waits route user⟩
  by_contra elsewhere
  exact not_clean_of_elsewhere reachable.orderly waits route user hr own elsewhere clean

end Clean

/-- A `leaveHouse` is the first in flight, and its session user passes a test. -/
theorem first_leaving (σ : Config P) (test : SessionUser → Bool)
    (check : σ.pending.head?.any (fun p => (p.ctx.req.route matches .leaveHouse) &&
      p.ctx.user.any test) = true) :
    ∃ p u, σ.pending[0]? = some p ∧ p.ctx.req.route = .leaveHouse ∧ p.ctx.user = some u ∧
      test u = true := by
  rw [← List.head?_eq_getElem?]
  cases hp : σ.pending.head? with
  | none => simp [hp] at check
  | some p =>
    rw [hp, Option.any_some, Bool.and_eq_true] at check
    cases hu : p.ctx.user with
    | none => simp [hu] at check
    | some u =>
      refine ⟨p, u, rfl, ?_, hu, by simpa [hu] using check.2⟩
      cases hr : p.ctx.req.route <;> simp_all

/-- Ann looks at her house and is about to leave it. -/
def annLeaves : List (Label samplePlatform) :=
  annMoves ++ [.arrive { sid := 0, route := .house }, .settle 0 false,
    .arrive { sid := 0, route := .leaveHouse }]

theorem leavesClean_sample : ∃ c u, c.user = some u ∧
    LeavesClean (run (server samplePlatform) annLeaves (startUp samplePlatform)) 0 c u := by
  obtain ⟨p, u, waits, route, user, known⟩ := first_leaving
    (run (server samplePlatform) annLeaves (startUp samplePlatform))
    (fun u => decide (u.user_id = some 1 ∧ u.houseID = some 1)) (by decide +kernel)
  obtain ⟨hid, hhouse⟩ := of_decide_eq_true known
  refine ⟨p.ctx, u, user, (leavesClean_iff ⟨annLeaves, by decide, rfl⟩ waits route user).mpr ?_⟩
  rw [hid, hhouse]
  decide +kernel

/-- Ann leaves without a look at her house, so that the session does not remember it. -/
def annStays : List (Label samplePlatform) :=
  annMoves ++ [.arrive { sid := 0, route := .leaveHouse }]

theorem leaveHouse_stays : ∃ p u,
    (run (server samplePlatform) annStays (startUp samplePlatform)).pending[0]? = some p ∧
    p.ctx.req.route = .leaveHouse ∧ p.ctx.user = some u ∧
    ¬ LeavesClean (run (server samplePlatform) annStays (startUp samplePlatform)) 0 p.ctx u := by
  have reachable : Reachable samplePlatform
      (run (server samplePlatform) annStays (startUp samplePlatform)) := ⟨annStays, by decide, rfl⟩
  obtain ⟨p, u, waits, route, user, known⟩ := first_leaving
    (run (server samplePlatform) annStays (startUp samplePlatform))
    (fun u => decide (u.user_id = some 1 ∧ u.houseID = none)) (by decide +kernel)
  obtain ⟨hid, hhouse⟩ := of_decide_eq_true known
  have stays : ∃ r ∈ (run (server samplePlatform) annStays
      (startUp samplePlatform)).world.db.tables.houseUser,
      eqLit samplePlatform.collate (r .user_id) (.num 1) = some true := by decide +kernel
  obtain ⟨r, hr, own⟩ := stays
  refine ⟨p, u, waits, route, user, not_clean_of_elsewhere reachable.orderly waits route user hr
    (by rw [hid]; exact own) ?_⟩
  rw [hhouse, idLit, eqLit_null]
  nofun

end OneRoof
