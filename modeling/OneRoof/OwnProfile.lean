import OneRoof.Assignment
import OneRoof.Profiles

/-!
# When an update of the own profile takes effect

Four routes guard their update with a look-up by the email of the session. Whatever
the order in which the statements of the request settle, the update is there
afterwards exactly when the look-up finds somebody. A session that a login through
Facebook left has no email, so its updates are never written.
-/

namespace OneRoof

open Sql Async Async.Prog Prog

variable {P : Platform}

/-- Own statements of a request that arrives now, settled in the given order while all else
that is in flight stays there. -/
def ownRun (q : Request) (order : List Nat) (σ : Config P) : Config P :=
  run (server P) (.arrive q :: order.map fun i => .settle (σ.pending.length + i) false) σ

/-- What is in flight before a request arrives does not matter to its own statements. -/
theorem run_frame (order : List Nat) (w : World P)
    (ps qs : List (Pending Stmt Stmt.Reply Act Ctx)) :
    run (server P) (order.map fun i => .settle (ps.length + i) false) ⟨w, ps ++ qs⟩ =
      ⟨(run (server P) (order.map fun i => .settle i false) ⟨w, qs⟩).world,
        ps ++ (run (server P) (order.map fun i => .settle i false) ⟨w, qs⟩).pending⟩ := by
  induction order generalizing w qs with
  | nil => rfl
  | cons i order ih =>
    simp only [List.map_cons, run_cons, step]
    rw [settle_frame]
    exact ih _ _

theorem ownRun_eq (q : Request) (order : List Nat) (σ : Config P) :
    ownRun q order σ =
      ⟨(run (server P) (order.map fun i => .settle i false)
          (enter (server P) (σ.world.context q) (handler P (σ.world.context q))
            ⟨σ.world.next, []⟩)).world,
        σ.pending ++ (run (server P) (order.map fun i => .settle i false)
          (enter (server P) (σ.world.context q) (handler P (σ.world.context q))
            ⟨σ.world.next, []⟩)).pending⟩ := by
  have arrived := enter_frame (server P) (σ.world.context q) (handler P (σ.world.context q))
    σ.world.next σ.pending []
  rw [List.append_nil] at arrived
  rw [ownRun, run_cons, arrive_eq, arrived]
  exact run_frame order _ σ.pending _

section Stages

variable (P) (c : Ctx) (u : SessionUser) (db : Database P.collate)

/-- The tables once the request is through. -/
def afterwards : Database P.collate :=
  match granted P c u db with
  | some stmt => ((exec P.collate stmt db).map Prod.snd).getD db
  | none => db

/-- The copy of the look-up that nobody waits for, or nothing. -/
def Copy (ps : List (Pending Stmt Stmt.Reply Act Ctx)) : Prop :=
  ps = [] ∨ ps = [⟨c, .getUser u.email, fun _ => .done⟩]

/-- Where a request that looks its user up has got to, when nothing fails. -/
inductive Stage : Config P → Prop
  | looking {w : World P} {ps : List (Pending Stmt Stmt.Reply Act Ctx)}
      {k : Option (List (Row UserCol)) → Prog} (same : w.db = db) (copy : Copy c u ps)
      (starts : ∀ reply, (k reply).Starts (reply.bind (grants P c u))) :
      Stage ⟨w, ps ++ [⟨c, .getUser u.email, k⟩]⟩
  | writing {w : World P} {ps : List (Pending Stmt Stmt.Reply Act Ctx)} {stmt : Stmt}
      (same : w.db = db) (copy : Copy c u ps) (grant : granted P c u db = some stmt) :
      Stage ⟨w, ps ++ [⟨c, stmt, fun _ => .done⟩]⟩
  | settled {w : World P} {ps : List (Pending Stmt Stmt.Reply Act Ctx)}
      (through : w.db = afterwards P c u db) (copy : Copy c u ps) : Stage ⟨w, ps⟩

variable {P c u db}

/-- The copy goes without a trace, or a later statement is meant. -/
theorem settle_copy {ps : List (Pending Stmt Stmt.Reply Act Ctx)} (copy : Copy c u ps) (i : Nat)
    (w : World P) (qs : List (Pending Stmt Stmt.Reply Act Ctx)) :
    (∃ w' : World P, w'.db = w.db ∧ settle (server P) i false ⟨w, ps ++ qs⟩ = ⟨w', qs⟩) ∨
      ∃ j, i = ps.length + j := by
  rcases copy with rfl | rfl
  · exact Or.inr ⟨i, by simp⟩
  · cases i with
    | succ j => exact Or.inr ⟨j, by simp; omega⟩
    | zero =>
      left
      cases he : exec P.collate (.getUser u.email) w.db with
      | none =>
        exact ⟨w.fail c (.getUser u.email), rfl, settle_refused (k := fun _ => .done) rfl he⟩
      | some rd =>
        exact ⟨w.complete c (.getUser u.email) rd.1 rd.2, exec_select (r := rd.1) rfl he,
          settle_at (k := fun _ => .done) rfl he⟩

/-- The look-up alone: its callback sends what it grants. -/
theorem settle_look {w : World P} (same : w.db = db) {k : Option (List (Row UserCol)) → Prog}
    (starts : ∀ reply, (k reply).Starts (reply.bind (grants P c u))) :
    ∃ w' : World P, w'.db = db ∧ settle (server P) 0 false ⟨w, [⟨c, .getUser u.email, k⟩]⟩ =
      ⟨w', ((granted P c u db).map fun s =>
        (⟨c, s, fun _ => .done⟩ : Pending Stmt Stmt.Reply Act Ctx)).toList⟩ := by
  subst same
  have callback : ∀ reply (w' : World P), w'.db = w.db →
      reply.bind (grants P c u) = granted P c u w.db → ∃ w'' : World P, w''.db = w.db ∧
        enter (server P) c (k reply) ⟨w', []⟩ = ⟨w'', ((granted P c u w.db).map fun s =>
          (⟨c, s, fun _ => .done⟩ : Pending Stmt Stmt.Reply Act Ctx)).toList⟩ := by
    intro reply w' hw agree
    refine ⟨(enter (server P) c (k reply) ⟨w', []⟩).world, (enter_db _ _ _).trans hw, ?_⟩
    have pending := enter_starts (M := server P) (c := c) (starts reply) ⟨w', []⟩
    rw [agree, List.nil_append] at pending
    rw [← pending]
  cases he : exec P.collate (.getUser u.email) w.db with
  | none =>
    rw [settle_refused (s := .getUser u.email) (k := k) rfl he]
    exact callback none _ rfl (by rw [granted, he]; rfl)
  | some rd =>
    rw [settle_at (s := .getUser u.email) (k := k) (r := rd.1) rfl he]
    exact callback (some rd.1) _ (exec_select rfl he) (by rw [granted, he]; rfl)

theorem settle_write {w : World P} (same : w.db = db) {stmt : Stmt}
    (grant : granted P c u db = some stmt) :
    ∃ w' : World P, w'.db = afterwards P c u db ∧
      settle (server P) 0 false ⟨w, [⟨c, stmt, fun _ => .done⟩]⟩ = ⟨w', []⟩ := by
  subst same
  cases he : exec P.collate stmt w.db with
  | none =>
    refine ⟨_, ?_, settle_refused (k := fun _ => .done) rfl he⟩
    simp only [afterwards, grant, he]
    rfl
  | some rd =>
    refine ⟨_, ?_, settle_at (k := fun _ => .done) (r := rd.1) rfl he⟩
    simp only [afterwards, grant, he]
    rfl

/-- Each settlement takes the request to its next stage, or leaves it where it is. -/
theorem settle_stage (i : Nat) {σ : Config P} (stage : Stage P c u db σ) :
    Stage P c u db (settle (server P) i false σ) := by
  have beyond : ∀ (j : Nat) (w : World P) (p : Pending Stmt Stmt.Reply Act Ctx),
      settle (server P) (j + 1) false ⟨w, [p]⟩ = ⟨w, [p]⟩ := fun _ _ _ => rfl
  cases stage with
  | @looking w ps k same copy starts =>
    rcases settle_copy copy i w [⟨c, .getUser u.email, k⟩] with ⟨w', hw, hs⟩ | ⟨j, rfl⟩
    · rw [hs]
      have gone : Copy c u [] := Or.inl rfl
      have next := Stage.looking (hw.trans same) gone starts
      exact next
    rw [settle_frame]
    cases j with
    | succ j =>
      rw [beyond]
      exact .looking same copy starts
    | zero =>
      obtain ⟨w', hw, hs⟩ := settle_look same starts
      rw [hs]
      cases grant : granted P c u db with
      | none => exact .settled (by rw [hw, afterwards, grant]) (by simpa using copy)
      | some stmt => exact .writing hw copy grant
  | @writing w ps stmt same copy grant =>
    rcases settle_copy copy i w [⟨c, stmt, fun _ => .done⟩] with ⟨w', hw, hs⟩ | ⟨j, rfl⟩
    · rw [hs]
      have gone : Copy c u [] := Or.inl rfl
      have next := Stage.writing (hw.trans same) gone grant
      exact next
    rw [settle_frame]
    cases j with
    | succ j =>
      rw [beyond]
      exact .writing same copy grant
    | zero =>
      obtain ⟨w', hw, hs⟩ := settle_write same grant
      rw [hs]
      exact .settled hw (by simpa using copy)
  | @settled w ps through copy =>
    rcases settle_copy copy i w [] with ⟨w', hw, hs⟩ | ⟨j, rfl⟩
    · rw [List.append_nil] at hs
      rw [hs]
      exact .settled (hw.trans through) (Or.inl rfl)
    · have nothing : settle (server P) (ps.length + j) false ⟨w, ps⟩ = ⟨w, ps⟩ := by
        have frame := settle_frame (server P) j false w ps []
        rw [List.append_nil] at frame
        rw [frame]
        simp [settle]
      rw [nothing]
      exact .settled through copy

theorem run_stage (order : List Nat) {σ : Config P} (stage : Stage P c u db σ) :
    Stage P c u db (run (server P) (order.map fun i => .settle i false) σ) := by
  induction order generalizing σ with
  | nil => exact stage
  | cons i order ih => exact ih (settle_stage i stage)

theorem Stage.idle {w : World P} (stage : Stage P c u db ⟨w, []⟩) :
    w.db = afterwards P c u db := by
  generalize hσ : (⟨w, []⟩ : Config P) = σ at stage
  cases stage with
  | looking => simp at hσ
  | writing => simp at hσ
  | settled through => rw [(Config.mk.inj hσ).1]; exact through

/-- Settled in the order in which they were sent, the statements leave nothing in flight. -/
theorem exists_settled (w : World P) {k : Option (List (Row UserCol)) → Prog}
    (starts : ∀ reply, (k reply).Starts (reply.bind (grants P c u))) :
    (run (server P) ([0, 0, 0].map fun i => .settle i false)
      ⟨w, [⟨c, .getUser u.email, fun _ => .done⟩, ⟨c, .getUser u.email, k⟩]⟩).pending = [] := by
  simp only [List.map_cons, List.map_nil, run_cons, run_nil, step]
  rcases settle_copy (c := c) (u := u) (Or.inr rfl) 0 w [⟨c, .getUser u.email, k⟩] with
    ⟨w₁, -, first⟩ | ⟨j, none⟩
  · obtain ⟨w₂, same, second⟩ := settle_look (c := c) (u := u) (w := w₁) rfl starts
    rw [List.singleton_append] at first
    rw [first, second]
    cases grant : granted P c u w₁.db with
    | none => rfl
    | some stmt =>
      obtain ⟨w₃, -, third⟩ := settle_write (c := c) (u := u) same grant
      exact congrArg Config.pending third
  · simp at none
    omega

end Stages

section Columns

variable {c : Ctx} {u : SessionUser} {col : UserCol} {field : String}

theorem grants_column (column : c.req.route.column = some (col, field)) :
    ∃ stmt : Stmt, stmt.setsUser = some (col, c.req.body.get field, u.user_id) ∧
      ∀ rows, grants P c u rows = if rows.length ≠ 0 then some stmt else none := by
  unfold Route.column at column
  split at column
  case h_1 route => cases column; exact ⟨_, rfl, fun rows => by rw [grants, route]⟩
  case h_2 route => cases column; exact ⟨_, rfl, fun rows => by rw [grants, route]⟩
  case h_3 route => cases column; exact ⟨_, rfl, fun rows => by rw [grants, route]⟩
  case h_4 route => cases column; exact ⟨_, rfl, fun rows => by rw [grants, route]⟩
  case h_5 => cases column

theorem column_updates {r : Route} (column : r.column = some (col, field)) :
    r.updates = some col ∧ r ≠ .upload := by
  cases r <;> cases column <;> exact ⟨rfl, nofun⟩

/-- The look-up by the email of the session finds somebody. -/
def Found (P : Platform) (u : SessionUser) (db : Database P.collate) : Prop :=
  ∃ rows : List (Row UserCol), exec P.collate (.getUser u.email) db = some (rows, db) ∧ rows ≠ []

variable {db : Database P.collate}

theorem afterwards_found (column : c.req.route.column = some (col, field)) {v : String}
    (given : c.req.body.get field = .str v) (found : Found P u db) :
    (afterwards P c u db).tables.user =
      db.tables.user.map (written P.collate col (.text v) u.user_id) := by
  obtain ⟨rows, he, some_row⟩ := found
  obtain ⟨stmt, writes, granting⟩ := grants_column (P := P) (u := u) column
  have grant : granted P c u db = some stmt := by
    rw [granted, he]
    exact (granting rows).trans (if_pos (by simpa using some_row))
  rw [given] at writes
  obtain ⟨r, db', hx, -, ht⟩ := exec_setsUser_scalar writes rfl db
  simp only [afterwards, grant, hx, Option.map_some, Option.getD_some, ht]
  rfl

theorem afterwards_lost (column : c.req.route.column = some (col, field))
    (lost : ¬ Found P u db) : afterwards P c u db = db := by
  obtain ⟨stmt, -, granting⟩ := grants_column (P := P) (u := u) column
  have grant : granted P c u db = none := by
    rw [granted]
    cases he : exec P.collate (.getUser u.email) db with
    | none => rfl
    | some rd =>
      obtain ⟨rows, db'⟩ := rd
      have same : db' = db := exec_select rfl he
      refine (granting rows).trans (if_neg fun some_row => lost ⟨rows, same ▸ he, fun none => ?_⟩)
      exact some_row (congrArg List.length none)
  rw [afterwards, grant]

end Columns

/-- When a request has settled, the row of its session's user has the value. -/
def TakesEffect (σ : Config P) (q : Request) (u : SessionUser) (col : UserCol) (v : String) :
    Prop :=
  ∀ order, (ownRun q order σ).pending = σ.pending →
    ∃ r ∈ (ownRun q order σ).world.db.tables.user,
      eqLit P.collate (r .user_id) (idLit u.user_id) = some true ∧ r col = .text v

/-- In whatever order the statements of the request settle, they do the same. -/
theorem ownRun_db {σ : Config P} {q : Request} {u : SessionUser}
    (stored : σ.world.store q.sid = some u) (updates : q.route.updates ≠ none)
    (looks : q.route ≠ .upload) :
    (∀ order, (ownRun q order σ).pending = σ.pending → (ownRun q order σ).world.db =
      afterwards P (σ.world.context q) u σ.world.db) ∧
    ∃ order, (ownRun q order σ).pending = σ.pending := by
  obtain ⟨k, waits, starts⟩ := handler_grants (P := P) (c := σ.world.context q) stored updates looks
  have arrived : enter (server P) (σ.world.context q) (handler P (σ.world.context q))
      ⟨σ.world.next, []⟩ = ⟨σ.world.next, [⟨σ.world.context q, .getUser u.email, fun _ => .done⟩,
        ⟨σ.world.context q, .getUser u.email, k⟩]⟩ := by
    rw [waits]
    rfl
  constructor
  · intro order idle
    obtain ⟨w, ps, own, stage⟩ : ∃ w ps, ownRun q order σ = ⟨w, σ.pending ++ ps⟩ ∧
        Stage P (σ.world.context q) u σ.world.db ⟨w, ps⟩ := by
      refine ⟨_, _, by rw [ownRun_eq, arrived], ?_⟩
      exact run_stage order (.looking (w := σ.world.next) (c := σ.world.context q) rfl
        (Or.inr rfl) starts)
    rw [own] at idle ⊢
    have none : ps = [] := List.append_right_eq_self.mp idle
    subst none
    exact stage.idle
  · refine ⟨[0, 0, 0], ?_⟩
    rw [ownRun_eq, arrived, exists_settled _ starts, List.append_nil]

/-- In every state, an update of the own profile takes effect exactly when the row is there
and the look-up by the session's email finds somebody, or the row has the value already. -/
theorem update_takes_effect_iff {σ : Config P} {q : Request} {u : SessionUser} {col : UserCol}
    {field v : String} (stored : σ.world.store q.sid = some u)
    (column : q.route.column = some (col, field)) (given : q.body.get field = .str v)
    (short : fits col (.text v) = true) :
    TakesEffect σ q u col v ↔ ∃ r ∈ σ.world.db.tables.user,
      eqLit P.collate (r .user_id) (idLit u.user_id) = some true ∧
        (Found P u σ.world.db ∨ r col = .text v) := by
  obtain ⟨updates, looks⟩ := column_updates column
  obtain ⟨settled, order, idle⟩ := ownRun_db stored (by rw [updates]; nofun) looks
  have other : UserCol.user_id ≠ col := by
    rintro rfl
    cases hr : q.route <;> rw [hr] at column <;> cases column
  have same : store col (.text v) = .text v := store_fitting short
  constructor
  · intro takes
    obtain ⟨r, hr, own, value⟩ := takes order idle
    rw [settled order idle] at hr
    by_cases found : Found P u σ.world.db
    · rw [afterwards_found column given found] at hr
      obtain ⟨r', hr', rfl⟩ := List.mem_map.mp hr
      rw [written_other other] at own
      exact ⟨r', hr', own, Or.inl found⟩
    · rw [afterwards_lost column found] at hr
      exact ⟨r, hr, own, Or.inr value⟩
  · rintro ⟨r, hr, own, cause⟩ order idle
    rw [settled order idle]
    by_cases found : Found P u σ.world.db
    · rw [afterwards_found column given found]
      refine ⟨_, List.mem_map_of_mem hr, ?_, ?_⟩
      · rw [written_other other]
        exact own
      · rw [written, if_pos own, Function.update_self, same]
    · rw [afterwards_lost column found]
      exact ⟨r, hr, own, cause.resolve_left found⟩

/-- In the runs of plain requests the look-up finds somebody exactly for the sessions that
have an email, which those of a login through Facebook do not. -/
theorem found_iff_mailed {ls : List (Label P)} (plain : ∀ l ∈ ls, PlainLabel P l) {sid : Nat}
    {u : SessionUser} (stored : (run (server P) ls (startUp P)).world.store sid = some u) :
    Found P u (run (server P) ls (startUp P)).world.db ↔ u.email.lit ≠ .null := by
  obtain ⟨scalar, n, a, -, -, mem, kind⟩ := (plain_holds plain).1.sessions sid u stored
  constructor
  · rintro ⟨rows, he, -⟩
    exact (selectUser_scalar scalar he).1
  · intro mailed
    have equal := (firstWith_email (kind.resolve_right fun h => mailed h.1)).2
    obtain ⟨r, hr, rfl⟩ := List.mem_map.mp mem
    refine ⟨_, selectUser_given scalar mailed _ _, List.ne_nil_of_mem (a := r) ?_⟩
    exact List.mem_filter.mpr ⟨hr, decide_eq_true equal⟩

/-- Ann signs up. -/
def annSignsUp : List (Label samplePlatform) :=
  [.arrive { sid := 0, route := .signup, body := .obj [("email", .str "ann@x"),
      ("password", .str "pw"), ("confirmPass", .str "pw"), ("displayName", .str "Ann")] },
    .settle 0 false, .settle 0 false, .settle 0 false, .settle 0 false, .settle 0 false]

def annsProfile : Profile := sampleProfile

/-- Ann comes through Facebook. -/
def annThroughFacebook : List (Label samplePlatform) :=
  [.arrive { sid := 0, route := .facebookCallback (some (annsProfile, "token")) },
    .settle 0 false, .settle 0 false, .settle 0 false]

def newMobile : Request where
  sid := 0
  route := .updateMobile
  body := .obj [("newMobile", .str "555")]

theorem update_takes_effect_sample :
    ∃ u, (run (server samplePlatform) annSignsUp (startUp samplePlatform)).world.store 0 = some u ∧
      TakesEffect (run (server samplePlatform) annSignsUp (startUp samplePlatform)) newMobile u
        .phone_num "555" := by
  have check : ((run (server samplePlatform) annSignsUp
      (startUp samplePlatform)).world.store 0).any (fun u => decide (u.user_id = some 1) &&
        u.email.lit != .null) = true := by decide +kernel
  obtain ⟨u, stored, check⟩ := (Option.any_eq_true _ _).mp check
  obtain ⟨id, mailed⟩ := Bool.and_eq_true_iff.mp check
  have found := (found_iff_mailed (plain_of_plainly (by decide +kernel)) stored).mpr
    (by simpa using mailed)
  refine ⟨u, stored, (update_takes_effect_iff stored rfl rfl (by decide)).mpr ?_⟩
  rw [of_decide_eq_true id]
  have row : ∃ r ∈ (run (server samplePlatform) annSignsUp
      (startUp samplePlatform)).world.db.tables.user,
      eqLit samplePlatform.collate (r .user_id) (.num 1) = some true := by decide +kernel
  obtain ⟨r, hr, own⟩ := row
  exact ⟨r, hr, own, Or.inl found⟩

/-- Her session has no email, so her mobile number is never written. -/
theorem facebook_update_lost :
    ∃ u, Reachable samplePlatform
        (run (server samplePlatform) annThroughFacebook (startUp samplePlatform)) ∧
      (run (server samplePlatform) annThroughFacebook
        (startUp samplePlatform)).world.store 0 = some u ∧
      ¬ TakesEffect (run (server samplePlatform) annThroughFacebook (startUp samplePlatform))
        newMobile u .phone_num "555" := by
  obtain ⟨u, stored⟩ := Option.isSome_iff_exists.mp (show ((run (server samplePlatform)
    annThroughFacebook (startUp samplePlatform)).world.store 0).isSome = true by decide +kernel)
  refine ⟨u, ⟨annThroughFacebook, by decide, rfl⟩, stored, fun takes => ?_⟩
  have before : (run (server samplePlatform) annThroughFacebook
      (startUp samplePlatform)).pending = [] := List.isEmpty_iff.mp (by decide +kernel)
  have after : (ownRun newMobile [0, 0] (run (server samplePlatform) annThroughFacebook
      (startUp samplePlatform))).pending = [] := List.isEmpty_iff.mp (by decide +kernel)
  obtain ⟨r, hr, -, value⟩ := takes [0, 0] (after.trans before.symm)
  have kept : ∀ r ∈ (ownRun newMobile [0, 0] (run (server samplePlatform) annThroughFacebook
      (startUp samplePlatform))).world.db.tables.user, r .phone_num ≠ .text "555" := by
    decide +kernel
  exact kept r hr value

end OneRoof
