import OneRoof.Passwords

/-!
# Whose updates a row takes

The row of a user changes by the updates that sessions of that user ask for and by
nothing else, however the requests of everybody interleave. Requests that are in
flight together and ask for different columns do not get in each other's way: what
each of them will write is settled before any of them has written.
-/

namespace OneRoof

open Sql Async Async.Prog Prog

variable {P : Platform}

/-- The user a request is made for. -/
def Ctx.userId (c : Ctx) : Option Int := c.user.bind SessionUser.user_id

/-- The column and the value that a request about the own profile asks for. -/
def Ctx.requests (P : Platform) (c : Ctx) : Option (UserCol × Value) :=
  match c.req.route with
  | .updateDispl => some (.displayName, (c.req.body.get "displayName").lit.value)
  | .updatePass => (c.req.body.get "newPass").toStr.map fun pass =>
      (.hash_pass, .text (P.hashSync pass c.req.salt))
  | .updatePaymentMethod => some (.payment_method, (c.req.body.get "newMethod").lit.value)
  | .updatePaymentUser => some (.payment_username, (c.req.body.get "newUsername").lit.value)
  | .updateMobile => some (.phone_num, (c.req.body.get "newMobile").lit.value)
  | .upload => c.req.file.map fun filename =>
      (.user_pic, .text ("./uploads/" ++ filename ++ ".png"))
  | _ => none

section Requests

variable {c : Ctx} {s : Stmt} {col : UserCol} {x : Value}

theorem requests_updates (asks : c.requests P = some (col, x)) :
    c.req.route.updates = some col := by
  unfold Ctx.requests at asks
  split at asks
  case h_2 route =>
    obtain ⟨pass, -, h⟩ := Option.map_eq_some_iff.mp asks
    cases h
    rw [route]
    rfl
  case h_6 route =>
    obtain ⟨file, -, h⟩ := Option.map_eq_some_iff.mp asks
    cases h
    rw [route]
    rfl
  case h_7 => cases asks
  all_goals
    rename_i route
    cases asks
    rw [route]
    rfl

/-- An update of `tblUSER` is what its request asked for, for its session's user. -/
theorem Sends.asked (sends : Sends P c s) {v : JsVal} {id : Option Int}
    (writes : s.setsUser = some (col, v, id)) :
    c.requests P = some (col, v.lit.value) ∧ c.userId = id := by
  cases sends with
  | select reads => cases s <;> simp_all [Stmt.isSelect, Stmt.setsUser]
  | updateProfPic route user file =>
    cases writes
    simp only [Ctx.requests, Ctx.userId, route, user, file]
    exact ⟨rfl, rfl⟩
  | updateUserPass route user printed =>
    cases writes
    simp only [Ctx.requests, Ctx.userId, route, user, printed]
    exact ⟨rfl, rfl⟩
  | updateUserDisplayName route user | updateUserPaymentMethod route user
  | updateUserPaymentUsername route user | updateMobile route user =>
    cases writes
    simp only [Ctx.requests, Ctx.userId, route, user]
    trivial
  | _ => cases writes

end Requests

/-- The update that a completed statement made to the row of user `n`. -/
def Event.ownWrite (P : Platform) (n : Int) : Event → Option (UserCol × Value)
  | .completed c s _ => if s.setsUser ≠ none ∧ c.userId = some n then c.requests P else none
  | _ => none

/-- A row after some updates. -/
def rewritten (row : Row UserCol) (writes : List (UserCol × Value)) : Row UserCol :=
  writes.foldl (fun r w => Function.update r w.1 (store w.1 w.2)) row

theorem rewritten_append (row : Row UserCol) (writes more : List (UserCol × Value)) :
    rewritten row (writes ++ more) = rewritten (rewritten row writes) more :=
  List.foldl_append

theorem Stmt.rewrites_none {s : Stmt} (reads : s.setsUser = none) (n : Int) (row : Row UserCol) :
    s.rewrites n row = row := by
  simp only [Stmt.rewrites, reads]

/-- A lawful statement does to a row what its event says. -/
theorem Sends.rewrites {c : Ctx} {s : Stmt} (sends : Sends P c s) (r : s.Reply) (n : Int)
    (row : Row UserCol) :
    s.rewrites n row = rewritten row (Event.ownWrite P n (.completed c s r)).toList := by
  cases writes : s.setsUser with
  | none => simp [Stmt.rewrites_none writes, Event.ownWrite, writes, rewritten]
  | some w =>
    obtain ⟨col, v, id⟩ := w
    obtain ⟨asks, user⟩ := sends.asked writes
    simp only [Event.ownWrite, writes, user, asks, Stmt.rewrites]
    cases id with
    | none => simp [rewritten]
    | some m => by_cases same : m = n <;> simp [same, rewritten]

/-- The log grows by what the steps did, and a row by the updates among it. -/
def RowFollows (n : Int) (row : Row UserCol) (log : List Event) (w : World P) : Prop :=
  ∃ new, w.log = log ++ new ∧
    rewritten row (new.filterMap (Event.ownWrite P n)) ∈ w.db.tables.user ∧
    rewritten row (new.filterMap (Event.ownWrite P n)) .user_id = .int n

section Follows

variable {n : Int} {row : Row UserCol} {log : List Event}

/-- Events that are no completed statement leave the row. -/
theorem RowFollows.logged {w w' : World P} (follows : RowFollows n row log w) (same : w'.db = w.db)
    {e : Event} (other : ∀ c s r, e ≠ .completed c s r) (logged : w'.log = w.log ++ [e]) :
    RowFollows n row log w' := by
  obtain ⟨new, hl, mem, id⟩ := follows
  have none : Event.ownWrite P n e = none := by
    cases e with
    | completed c s r => exact absurd rfl (other c s r)
    | _ => rfl
  refine ⟨new ++ [e], by rw [logged, hl, List.append_assoc], ?_⟩
  rw [List.filterMap_append, List.filterMap_cons_none none, List.filterMap_nil, List.append_nil,
    same]
  exact ⟨mem, id⟩

theorem RowFollows.perform {w : World P} (follows : RowFollows n row log w) (c : Ctx) (a : Act) :
    RowFollows n row log (World.perform c a w).2 := by
  have same : (World.perform c a w).2.db = w.db := perform_db c a w
  rcases perform_log c a w with hl | ⟨e, -, other, hl⟩
  · rw [RowFollows, hl, same]
    exact follows
  · exact follows.logged same other hl

theorem RowFollows.complete {c : Ctx} {s : Stmt} {r : s.Reply} {db : Database P.collate}
    {w : World P} (follows : RowFollows n row log w)
    (lawful : Lawful P c s w.db.tables.accounts) (he : exec P.collate s w.db = some (r, db)) :
    RowFollows n row log (w.complete c s r db) := by
  obtain ⟨new, hl, mem, id⟩ := follows
  refine ⟨new ++ [.completed c s r], by rw [World.complete, hl, List.append_assoc], ?_⟩
  have after := row_exec lawful he mem id
  have kept := (rewrites_id s n _).trans id
  rw [lawful.sends.rewrites r, ← rewritten_append] at after kept
  rw [List.filterMap_append]
  have one : [Event.completed c s r].filterMap (Event.ownWrite P n) =
      (Event.ownWrite P n (.completed c s r)).toList := by
    cases h : Event.ownWrite P n (.completed c s r) <;> simp [h]
  rw [one]
  exact ⟨after, kept⟩

theorem enter_rowFollows (c : Ctx) (prog : Prog) (σ : Config P)
    (follows : RowFollows n row log σ.world) :
    RowFollows n row log (enter (server P) c prog σ).world := by
  induction prog generalizing σ with
  | done => exact follows
  | throw => exact follows
  | issue s k rest _ ih => exact ih ⟨σ.world, σ.pending ++ [⟨c, s, k⟩]⟩ follows
  | act a k ih => exact ih _ ⟨_, σ.pending⟩ (follows.perform c a)

theorem step_follows {l : Label P} (plain : PlainLabel P l) {σ : Config P}
    (holds : (identity P).Holds σ) (follows : RowFollows n row log σ.world) :
    RowFollows n row log (step (server P) l σ).world := by
  cases l with
  | arrive q => exact enter_rowFollows _ _ _ follows
  | disturb db => exact absurd plain.own id
  | settle i lost =>
    simp only [step]
    rcases server_settle_cases i lost σ with same | ⟨p, hp, ⟨hs, -⟩ | ⟨r, db, -, he, hs⟩⟩
    · rw [same]
      exact follows
    · rw [hs]
      apply enter_rowFollows
      exact follows.logged rfl (fun _ _ _ h => Event.noConfusion h) rfl
    · rw [hs]
      apply enter_rowFollows
      exact follows.complete (holds.2 p (List.mem_of_getElem? hp)).1 he

theorem run_rowFollows {ls : List (Label P)} (plain : ∀ l ∈ ls, PlainLabel P l) {σ : Config P}
    (holds : (identity P).Holds σ) (follows : RowFollows n row log σ.world) :
    RowFollows n row log (run (server P) ls σ).world := by
  induction ls generalizing σ with
  | nil => exact follows
  | cons l ls ih =>
    have first := plain l List.mem_cons_self
    exact ih (fun l hl => plain l (List.mem_cons_of_mem _ hl))
      (Discipline.step_holds l (plain_admits first) σ holds).1 (step_follows first holds follows)

end Follows

section Stable

variable {c c' : Ctx} {s : Stmt} {db db' : Database P.collate} {r : s.Reply} {n : Int}
variable {u : SessionUser}

theorem grants_congr {rows rows' : List (Row UserCol)} {row row' : Row UserCol}
    (head : rows.head? = some row) (head' : rows'.head? = some row')
    (same : c.req.route = .updatePass → row' .hash_pass = row .hash_pass) :
    grants P c u rows' = grants P c u rows := by
  have some_row : rows.length ≠ 0 := by
    intro none
    rw [List.length_eq_zero_iff.mp none] at head
    cases head
  have some_row' : rows'.length ≠ 0 := by
    intro none
    rw [List.length_eq_zero_iff.mp none] at head'
    cases head'
  unfold grants
  split
  case h_5 route => simp only [head, head', Option.bind_eq_bind, Option.bind_some, same route]
  all_goals simp only [if_pos some_row, if_pos some_row']

/-- A session with an email finds its own row, in all later tables as well. -/
theorem exists_own_row (named : Identified P.collate db.tables.accounts u) (id : u.user_id = some n)
    (mailed : u.email.lit ≠ .null) :
    ∃ (rows : List (Row UserCol)) (row : Row UserCol),
      exec P.collate (.getUser u.email) db = some (rows, db) ∧
      rows.head? = some row ∧ row ∈ db.tables.user ∧ row .user_id = .int n := by
  have looked := selectUser_given named.scalar mailed .email db
  obtain ⟨m, a, hm, ha, mem, kind⟩ := named.named
  have equal := (firstWith_email (kind.resolve_right fun h => mailed h.1)).2
  obtain ⟨row, hr, rfl⟩ := List.mem_map.mp mem
  have found : row ∈ db.tables.user.filter fun r =>
      eqLit P.collate (r .email) u.email.lit = some true :=
    List.mem_filter.mpr ⟨hr, decide_eq_true equal⟩
  obtain ⟨first, head⟩ := Option.isSome_iff_exists.mp
    (List.isSome_head?.mpr (List.ne_nil_of_mem found))
  obtain ⟨k, hk, own, own_id⟩ := own_row_first named looked head
  cases id.symm.trans hk
  exact ⟨_, first, looked, head, own, own_id⟩

/-- What a look-up would grant depends on nothing but the hash of the own row. -/
theorem granted_exec (lawful : Lawful P c s db.tables.accounts)
    (he : exec P.collate s db = some (r, db'))
    (named : Identified P.collate db.tables.accounts u) (id : u.user_id = some n)
    (quiet : c'.req.route = .updatePass → ∀ v, s.setsUser ≠ some (.hash_pass, v, some n)) :
    granted P c' u db' = granted P c' u db := by
  by_cases mailed : u.email.lit = .null
  · have nobody : ∀ db : Database P.collate, granted P c' u db = none := by
      intro db
      cases hx : exec P.collate (.getUser u.email) db with
      | none => rw [granted, hx]; rfl
      | some rd => exact absurd mailed (selectUser_scalar named.scalar hx).1
    rw [nobody, nobody]
  · obtain ⟨rows, row, hx, head, hr, own⟩ := exists_own_row named id mailed
    obtain ⟨rows', row', hx', head', hr', own'⟩ :=
      exists_own_row (named.later (accounts_exec lawful he)) id mailed
    have after := row_exec lawful he hr own
    have same : s.rewrites n row = row' :=
      eq_of_user_id db' after hr' own' (by rw [rewrites_id, own]; simp [eqLit])
    rw [granted, granted, hx, hx']
    refine grants_congr head head' fun route => ?_
    rw [← same]
    exact rewrites_kept (quiet route) row

end Stable

/-- A statement in flight that ends in the update its request asks for, if all goes well. -/
inductive Plans (P : Platform) (db : Database P.collate) :
    Pending Stmt Stmt.Reply Act Ctx → Prop
  | write {p : Pending Stmt Stmt.Reply Act Ctx} (sets : p.stmt.setsUser ≠ none) : Plans P db p
  | look {c : Ctx} {u : SessionUser} {k : Option (List (Row UserCol)) → Prog} {stmt : Stmt}
      (user : c.user = some u) (starts : ∀ reply, (k reply).Starts (reply.bind (grants P c u)))
      (grant : granted P c u db = some stmt) : Plans P db ⟨c, .getUser u.email, k⟩

/-- An update of the row of user `n` is on its way. -/
def Planned (σ : Config P) (n : Int) (col : UserCol) (v : Value) : Prop :=
  ∃ p ∈ σ.pending, p.ctx.userId = some n ∧ Plans P σ.world.db p ∧
    p.ctx.requests P = some (col, v)

/-- Different requests in flight for user `n` ask for different columns. -/
def AsksApart (n : Int) (σ : Config P) : Prop :=
  ∀ p ∈ σ.pending, ∀ p' ∈ σ.pending, p.ctx.userId = some n → p'.ctx.userId = some n →
    ∀ col, p.ctx.req.route.updates = some col → p'.ctx.req.route.updates = some col →
      p.ctx.rid = p'.ctx.rid

theorem grants_sets {c : Ctx} {u : SessionUser} {rows : List (Row UserCol)} {stmt : Stmt}
    (grant : grants P c u rows = some stmt) : stmt.setsUser ≠ none := by
  unfold grants at grant
  split at grant
  case h_5 =>
    obtain ⟨row, -, grant⟩ := Option.bind_eq_some_iff.mp grant
    obtain ⟨valid, -, grant⟩ := Option.bind_eq_some_iff.mp grant
    split at grant
    · obtain ⟨pass, -, grant⟩ := Option.bind_eq_some_iff.mp grant
      cases grant
      nofun
    · cases grant
  case h_6 => cases grant
  all_goals
    split at grant
    · cases grant
      nofun
    · cases grant

theorem rewrites_cell {s : Stmt} {n : Int} {col : UserCol} {v : JsVal}
    (writes : s.setsUser = some (col, v, some n)) (row : Row UserCol) :
    s.rewrites n row col = store col v.lit.value := by
  simp [Stmt.rewrites, writes]

/-- How one settlement moves the row of user `n` and the updates on their way to it: no
update comes up, one that goes is in the row, and the row changes by nothing else. -/
structure Progress (n : Int) (row row' : Row UserCol) (σ σ' : Config P) : Prop where
  back : ∀ col v, Planned σ' n col v → Planned σ n col v
  forth : ∀ col v, Planned σ n col v → Planned σ' n col v ∨ row' col = store col v
  cell : ∀ col, row' col = row col ∨ ∃ v, Planned σ n col v ∧ row' col = store col v

/-- The invariants that the plans rest on. -/
structure Steady (σ : Config P) : Prop where
  holds : (identity P).Holds σ
  parts : Parts σ
  fresh : Fresh σ
  numbered : ∀ p ∈ σ.pending, ∀ p' ∈ σ.pending, p.ctx.rid = p'.ctx.rid → p.ctx = p'.ctx

section Settle

variable {σ : Config P} {i : Nat} {p p' : Pending Stmt Stmt.Reply Act Ctx} {n : Int}
variable {row : Row UserCol} {r : p.stmt.Reply} {db' : Database P.collate}

theorem Steady.lawful (steady : Steady σ) (hp : p ∈ σ.pending) :
    Lawful P p.ctx p.stmt σ.world.db.tables.accounts :=
  (steady.holds.2 p hp).1

/-- Unless a statement writes the hash that another request is going to compare, it does not
change what the other request will do. -/
theorem plans_exec (steady : Steady σ) (hp : p ∈ σ.pending) (hp' : p' ∈ σ.pending)
    (user : p'.ctx.userId = some n)
    (he : exec P.collate p.stmt σ.world.db = some (r, db'))
    (quiet : p'.ctx.req.route = .updatePass →
      ∀ v, p.stmt.setsUser ≠ some (.hash_pass, v, some n)) :
    Plans P db' p' ↔ Plans P σ.world.db p' := by
  have named := (steady.lawful hp').session
  constructor
  · intro plans
    cases plans with
    | write sets => exact .write sets
    | @look c u k stmt hu starts grant =>
      have id : u.user_id = some n := by simpa [Ctx.userId, hu] using user
      have same := granted_exec (steady.lawful hp) he (named u hu) id quiet
      exact .look hu starts (same.symm.trans grant)
  · intro plans
    cases plans with
    | write sets => exact .write sets
    | @look c u k stmt hu starts grant =>
      have id : u.user_id = some n := by simpa [Ctx.userId, hu] using user
      have same := granted_exec (steady.lawful hp) he (named u hu) id quiet
      exact .look hu starts (same.trans grant)

/-- Two requests that are about the same hash are one. -/
theorem same_of_clash (steady : Steady σ) (apart : AsksApart n σ) (hp : p ∈ σ.pending)
    (hp' : p' ∈ σ.pending) (user : p'.ctx.userId = some n)
    (route : p'.ctx.req.route = .updatePass) {v : JsVal}
    (writes : p.stmt.setsUser = some (.hash_pass, v, some n)) : p.ctx = p'.ctx := by
  obtain ⟨asks, own⟩ := (steady.lawful hp).sends.asked writes
  refine steady.numbered p hp p' hp' ?_
  exact apart p hp p' hp' own user .hash_pass (requests_updates asks) (by rw [route]; rfl)

theorem planned_write (steady : Steady σ) (hp : p ∈ σ.pending) {col : UserCol} {v : JsVal}
    (writes : p.stmt.setsUser = some (col, v, some n)) : Planned σ n col v.lit.value := by
  obtain ⟨asks, own⟩ := (steady.lawful hp).sends.asked writes
  exact ⟨p, hp, own, .write (by rw [writes]; nofun), asks⟩

/-- A statement that writes the row does what its request asks. -/
theorem wrote_asked (steady : Steady σ) (hp : p ∈ σ.pending) (user : p.ctx.userId = some n)
    (sets : p.stmt.setsUser ≠ none) {col : UserCol} {v : Value}
    (asks : p.ctx.requests P = some (col, v)) (row : Row UserCol) :
    p.stmt.rewrites n row col = store col v := by
  obtain ⟨⟨col', v', id⟩, writes⟩ := Option.ne_none_iff_exists'.mp sets
  obtain ⟨asks', own⟩ := (steady.lawful hp).sends.asked writes
  cases own.symm.trans user
  cases asks'.symm.trans asks
  exact rewrites_cell writes row

theorem refused_progress (steady : Steady σ) (waits : σ.pending[i]? = some p)
    (refused : exec P.collate p.stmt σ.world.db = none) :
    Progress n row row σ (settle (server P) i false σ) := by
  have hp := List.mem_of_getElem? waits
  have hs : settle (server P) i false σ = enter (server P) p.ctx (p.k none)
      ⟨σ.world.fail p.ctx p.stmt, σ.pending.eraseIdx i⟩ := settle_refused waits refused
  rw [hs]
  refine ⟨?_, ?_, fun col => Or.inl rfl⟩
  · rintro col v ⟨p', hp', user, plans, asks⟩
    rw [enter_db] at plans
    rcases mem_enter hp' with old | ⟨hc, new⟩
    · exact ⟨p', List.mem_of_mem_eraseIdx old, user, plans, asks⟩
    · have part := steady.parts p hp (by rw [← hc, requests_updates asks]; nofun)
      rw [enter_starts (refused_starts part)] at new
      cases new
  · rintro col v ⟨p', hp', user, plans, asks⟩
    rcases mem_or_erased waits hp' with rfl | rest
    · exfalso
      cases plans with
      | write sets =>
        obtain ⟨⟨col', v', id⟩, writes⟩ := Option.ne_none_iff_exists'.mp sets
        have lawful := steady.lawful hp
        obtain ⟨scalar, -⟩ := lawful.sends.updates lawful.plain writes
        obtain ⟨r, db', he, -⟩ := exec_setsUser_scalar writes scalar σ.world.db
        cases refused.symm.trans he
      | @look c u k stmt hu starts grant =>
        have missed : exec P.collate (.getUser u.email) σ.world.db = none := refused
        rw [granted, missed] at grant
        cases grant
    · left
      refine ⟨p', mem_enter_old rest, user, ?_, asks⟩
      rw [enter_db]
      exact plans

theorem completed_progress (steady : Steady σ) (apart : AsksApart n σ)
    (waits : σ.pending[i]? = some p) (he : exec P.collate p.stmt σ.world.db = some (r, db')) :
    Progress n row (p.stmt.rewrites n row) σ (settle (server P) i false σ) := by
  have hp := List.mem_of_getElem? waits
  have hs : settle (server P) i false σ = enter (server P) p.ctx (p.k (some r))
      ⟨σ.world.complete p.ctx p.stmt r db', σ.pending.eraseIdx i⟩ := settle_at waits he
  have moved : (settle (server P) i false σ).world.db = db' := by
    rw [hs, enter_db]
    rfl
  -- either the settled statement writes the hash that `p'` compares, or it leaves its plan
  have clash : ∀ p' ∈ σ.pending, p'.ctx.userId = some n →
      (p.ctx = p'.ctx ∧ p.stmt.setsUser ≠ none) ∨
        (Plans P db' p' ↔ Plans P σ.world.db p') := by
    intro p' hp' user
    by_cases loud : p'.ctx.req.route = .updatePass ∧
        ∃ v, p.stmt.setsUser = some (.hash_pass, v, some n)
    · obtain ⟨route, v, writes⟩ := loud
      exact Or.inl ⟨same_of_clash steady apart hp hp' user route writes, by rw [writes]; nofun⟩
    · refine Or.inr (plans_exec steady hp hp' user he fun route v writes => ?_)
      exact loud ⟨route, v, writes⟩
  refine ⟨?_, ?_, ?_⟩
  · rintro col v ⟨p', hp', user, plans, asks⟩
    rw [moved] at plans
    rw [hs] at hp'
    rcases mem_enter hp' with old | ⟨hc, new⟩
    · have hp' := List.mem_of_mem_eraseIdx old
      rcases clash p' hp' user with ⟨same, sets⟩ | stable
      · exact ⟨p, hp, by rw [same]; exact user, .write sets, by rw [same]; exact asks⟩
      · exact ⟨p', hp', user, stable.mp plans, asks⟩
    · rw [hc] at user asks
      refine ⟨p, hp, user, ?_, asks⟩
      have part := steady.parts p hp (by rw [requests_updates asks]; nofun)
      cases part with
      | loose => cases new
      | @look c u k hu starts =>
        change p' ∈ (enter (server P) c (k (some r)) ⟨_, []⟩).pending at new
        rw [enter_starts (starts (some r)), List.nil_append, Option.mem_toList,
          Option.map_eq_some_iff] at new
        obtain ⟨stmt, grant, -⟩ := new
        have looked : granted P c u σ.world.db = some stmt := by
          rw [granted, show exec P.collate (.getUser u.email) σ.world.db = some (r, db') from he]
          exact grant
        exact .look hu starts looked
  · rintro col v ⟨p', hp', user, plans, asks⟩
    rcases mem_or_erased waits hp' with rfl | rest
    · cases plans with
      | write sets => exact Or.inr (wrote_asked steady hp user sets asks row)
      | @look c u k stmt hu starts grant =>
        rw [granted, show exec P.collate (.getUser u.email) σ.world.db = some (r, db') from he]
          at grant
        have grant : grants P c u r = some stmt := grant
        have started : (k (some r)).Starts (some stmt) := grant ▸ starts (some r)
        have sent := enter_starts (M := server P) (c := c) started
          ⟨σ.world.complete c (.getUser u.email) r db', σ.pending.eraseIdx i⟩
        refine Or.inl ⟨⟨c, stmt, fun _ => .done⟩, ?_, user, .write (grants_sets grant), asks⟩
        rw [hs]
        exact sent ▸ List.mem_append_right _ (List.mem_singleton_self _)
    · rcases clash p' hp' user with ⟨same, sets⟩ | stable
      · rw [← same] at user asks
        exact Or.inr (wrote_asked steady hp user sets asks row)
      · left
        refine ⟨p', by rw [hs]; exact mem_enter_old rest, user, ?_, asks⟩
        rw [moved]
        exact stable.mpr plans
  · intro col
    by_cases writes : ∃ v, p.stmt.setsUser = some (col, v, some n)
    · obtain ⟨v, writes⟩ := writes
      exact Or.inr ⟨_, planned_write steady hp writes, rewrites_cell writes row⟩
    · exact Or.inl (rewrites_kept (fun v h => writes ⟨v, h⟩) row)

end Settle

/-- What is in flight after a settlement was in flight before, or its request was. -/
theorem settle_ctx {i : Nat} {lost : Bool} {σ : Config P} {p' : Pending Stmt Stmt.Reply Act Ctx}
    (hp' : p' ∈ (settle (server P) i lost σ).pending) : ∃ p ∈ σ.pending, p.ctx = p'.ctx := by
  rcases server_settle_cases i lost σ with same | ⟨p, hp, ⟨hs, -⟩ | ⟨r, db, -, -, hs⟩⟩
  · rw [same] at hp'
    exact ⟨p', hp', rfl⟩
  all_goals
    rw [hs] at hp'
    rcases mem_enter hp' with old | ⟨hc, -⟩
    · exact ⟨p', List.mem_of_mem_eraseIdx old, rfl⟩
    · exact ⟨p, List.mem_of_getElem? hp, hc.symm⟩

theorem step_steady {l : Label P} (plain : PlainLabel P l) {σ : Config P} (steady : Steady σ) :
    Steady (step (server P) l σ) := by
  refine ⟨(Discipline.step_holds l (plain_admits plain) σ steady.holds).1,
    step_parts l σ steady.parts, step_fresh l σ steady.fresh, ?_⟩
  cases l with
  | disturb db => exact absurd plain.own id
  | settle i lost =>
    intro p hp p' hp' same
    obtain ⟨q, hq, hc⟩ := settle_ctx hp
    obtain ⟨q', hq', hc'⟩ := settle_ctx hp'
    rw [← hc, ← hc'] at same ⊢
    exact steady.numbered q hq q' hq' same
  | arrive q =>
    rw [arrive_eq]
    intro p hp p' hp' same
    rcases mem_enter hp with old | ⟨hc, -⟩ <;> rcases mem_enter hp' with old' | ⟨hc', -⟩
    · exact steady.numbered p old p' old' same
    · have before := steady.fresh.pending p old
      rw [same, hc'] at before
      exact absurd before (Nat.lt_irrefl _)
    · have before := steady.fresh.pending p' old'
      rw [← same, hc] at before
      exact absurd before (Nat.lt_irrefl _)
    · rw [hc, hc']

theorem run_steady {ls : List (Label P)} (plain : ∀ l ∈ ls, PlainLabel P l) {σ : Config P}
    (steady : Steady σ) : Steady (run (server P) ls σ) :=
  run_invariant (fun _ l => PlainLabel P l) Steady (fun _ _ plain => step_steady plain)
    (along_of_forall _ plain σ) steady

theorem startUp_steady : Steady (startUp P) :=
  ⟨Discipline.idle_holds startUp_sound, fun _ hp => absurd hp List.not_mem_nil, startUp_fresh,
    fun _ hp => absurd hp List.not_mem_nil⟩

theorem settle_apart {n : Int} {i : Nat} {lost : Bool} {σ : Config P} (apart : AsksApart n σ) :
    AsksApart n (settle (server P) i lost σ) := by
  intro p hp p' hp' user user' col asks asks'
  obtain ⟨q, hq, hc⟩ := settle_ctx hp
  obtain ⟨q', hq', hc'⟩ := settle_ctx hp'
  rw [← hc] at user asks ⊢
  rw [← hc'] at user' asks' ⊢
  exact apart q hq q' hq' user user' col asks asks'

/-- What a column of the row of user `n` comes to when everything has settled. -/
def Fate (σ : Config P) (n : Int) (row : Row UserCol) (col : UserCol) (x : Value) : Prop :=
  (∃ v, Planned σ n col v ∧ x = store col v) ∨ (∀ v, ¬ Planned σ n col v) ∧ x = row col

section Fate

variable {σ σ' : Config P} {n : Int} {row row' : Row UserCol} {col : UserCol} {x y : Value}

theorem Progress.fate (progress : Progress n row row' σ σ') (fate : Fate σ' n row' col x) :
    Fate σ n row col x := by
  rcases fate with ⟨v, planned, hx⟩ | ⟨settled, hx⟩
  · exact Or.inl ⟨v, progress.back col v planned, hx⟩
  rcases progress.cell col with kept | ⟨v, planned, wrote⟩
  · by_cases pending : ∃ v, Planned σ n col v
    · obtain ⟨v, planned⟩ := pending
      rcases progress.forth col v planned with still | wrote
      · exact absurd still (settled v)
      · exact Or.inl ⟨v, planned, hx.trans wrote⟩
    · exact Or.inr ⟨fun v planned => pending ⟨v, planned⟩, hx.trans kept⟩
  · exact Or.inl ⟨v, planned, hx.trans wrote⟩

theorem fate_unique (steady : Steady σ) (apart : AsksApart n σ) (hx : Fate σ n row col x)
    (hy : Fate σ n row col y) : x = y := by
  rcases hx with ⟨v, ⟨p, hp, user, plans, asks⟩, rfl⟩ | ⟨settled, rfl⟩
  · rcases hy with ⟨v', ⟨p', hp', user', plans', asks'⟩, rfl⟩ | ⟨settled, -⟩
    · have same := steady.numbered p hp p' hp' (apart p hp p' hp' user user' col
        (requests_updates asks) (requests_updates asks'))
      rw [same] at asks
      cases asks.symm.trans asks'
      rfl
    · exact absurd ⟨p, hp, user, plans, asks⟩ (settled v)
  · rcases hy with ⟨v', planned, -⟩ | ⟨-, rfl⟩
    · exact absurd planned (settled v')
    · rfl

theorem settle_fate (steady : Steady σ) (apart : AsksApart n σ) (hr : row ∈ σ.world.db.tables.user)
    (hn : row .user_id = .int n) (i : Nat) :
    ∃ row' ∈ (settle (server P) i false σ).world.db.tables.user, row' .user_id = .int n ∧
      ∀ col x, Fate (settle (server P) i false σ) n row' col x → Fate σ n row col x := by
  cases waits : σ.pending[i]? with
  | none =>
    have same : settle (server P) i false σ = σ := by simp [settle, waits]
    rw [same]
    exact ⟨row, hr, hn, fun _ _ fate => fate⟩
  | some p =>
    cases he : exec P.collate p.stmt σ.world.db with
    | none =>
      have same : (settle (server P) i false σ).world.db = σ.world.db := by
        rw [settle_refused (k := p.k) waits he, enter_db]
        rfl
      rw [same]
      exact ⟨row, hr, hn, fun _ _ => (refused_progress steady waits he).fate⟩
    | some rd =>
      have moved : (settle (server P) i false σ).world.db = rd.2 := by
        rw [settle_at (k := p.k) (r := rd.1) waits he, enter_db]
        rfl
      rw [moved]
      refine ⟨p.stmt.rewrites n row,
        row_exec (steady.lawful (List.mem_of_getElem? waits)) he hr hn, ?_,
        fun _ _ => (completed_progress steady apart waits he).fate⟩
      rw [rewrites_id]
      exact hn

/-- The fate of a row is settled while its updates are still in flight. -/
theorem run_fate (order : List Nat) {σ : Config P} (steady : Steady σ) (apart : AsksApart n σ)
    {row : Row UserCol} (hr : row ∈ σ.world.db.tables.user) (hn : row .user_id = .int n) :
    ∃ row' ∈ (run (server P) (order.map fun i => .settle i false) σ).world.db.tables.user,
      row' .user_id = .int n ∧ ∀ col x,
        Fate (run (server P) (order.map fun i => .settle i false) σ) n row' col x →
        Fate σ n row col x := by
  induction order generalizing σ row with
  | nil => exact ⟨row, hr, hn, fun _ _ fate => fate⟩
  | cons i order ih =>
    obtain ⟨row₁, hr₁, hn₁, first⟩ := settle_fate steady apart hr hn i
    have steady₁ : Steady (settle (server P) i false σ) :=
      step_steady (.settle i false) steady
    obtain ⟨row₂, hr₂, hn₂, later⟩ := ih steady₁ (settle_apart apart) hr₁ hn₁
    exact ⟨row₂, hr₂, hn₂, fun col x fate => first col x (later col x fate)⟩

end Fate

/-- With nothing in flight, the fate of a row is the row. -/
theorem run_settled (order : List Nat) {σ : Config P} (steady : Steady σ) {n : Int}
    (apart : AsksApart n σ) {row : Row UserCol} (hr : row ∈ σ.world.db.tables.user)
    (hn : row .user_id = .int n)
    (idle : (run (server P) (order.map fun i => .settle i false) σ).pending = []) :
    ∃ row' ∈ (run (server P) (order.map fun i => .settle i false) σ).world.db.tables.user,
      row' .user_id = .int n ∧ ∀ col, Fate σ n row col (row' col) := by
  obtain ⟨row', hr', hn', fate⟩ := run_fate order steady apart hr hn
  refine ⟨row', hr', hn', fun col => fate col _ (Or.inr ⟨?_, rfl⟩)⟩
  rintro v ⟨p, hp, -⟩
  rw [idle] at hp
  cases hp

/-- From every state that plain requests reach: whatever happens next, the row of a user
changes by the updates its own sessions asked for; and once everything in flight has settled,
the order in which it did makes no difference to the row, as long as the requests of that user
ask for different columns. -/
theorem profile_updates_isolated (P : Platform) (ls : List (Label P))
    (plain : ∀ l ∈ ls, PlainLabel P l) (n : Int) (row : Row UserCol)
    (hr : row ∈ (run (server P) ls (startUp P)).world.db.tables.user)
    (hn : row .user_id = .int n) :
    (∀ ls' : List (Label P), (∀ l ∈ ls', PlainLabel P l) →
      RowFollows n row (run (server P) ls (startUp P)).world.log
        (run (server P) ls' (run (server P) ls (startUp P))).world) ∧
    (AsksApart n (run (server P) ls (startUp P)) → ∀ order order' : List Nat,
      (run (server P) (order.map fun i => .settle i false)
        (run (server P) ls (startUp P))).pending = [] →
      (run (server P) (order'.map fun i => .settle i false)
        (run (server P) ls (startUp P))).pending = [] →
      ∃ r : Row UserCol, r .user_id = .int n ∧
        r ∈ (run (server P) (order.map fun i => .settle i false)
          (run (server P) ls (startUp P))).world.db.tables.user ∧
        r ∈ (run (server P) (order'.map fun i => .settle i false)
          (run (server P) ls (startUp P))).world.db.tables.user ∧
        ∀ col, (∀ p ∈ (run (server P) ls (startUp P)).pending, p.ctx.userId = some n →
          p.ctx.req.route.updates ≠ some col) → r col = row col) := by
  have steady := run_steady plain startUp_steady
  constructor
  · intro ls' plain'
    apply run_rowFollows plain' steady.holds
    exact ⟨[], (List.append_nil _).symm, hr, hn⟩
  · intro apart order order' idle idle'
    obtain ⟨r, mem, id, fate⟩ := run_settled order steady apart hr hn idle
    obtain ⟨r', mem', -, fate'⟩ := run_settled order' steady apart hr hn idle'
    have same : r = r' := funext fun col => fate_unique steady apart (fate col) (fate' col)
    refine ⟨r, id, mem, same ▸ mem', fun col untouched => ?_⟩
    rcases fate col with ⟨v, ⟨p, hp, user, -, asks⟩, -⟩ | ⟨-, kept⟩
    · exact absurd (requests_updates asks) (untouched p hp user)
    · exact kept

/-- The condition as a check. -/
def asksApart (n : Int) (σ : Config P) : Bool :=
  σ.pending.all fun p => σ.pending.all fun p' => p.ctx.userId ≠ some n ||
    p'.ctx.userId ≠ some n || p.ctx.req.route.updates = none ||
    p.ctx.req.route.updates ≠ p'.ctx.req.route.updates || p.ctx.rid = p'.ctx.rid

theorem asksApart_of_check {n : Int} {σ : Config P} (check : asksApart n σ = true) :
    AsksApart n σ := by
  intro p hp p' hp' user user' col asks asks'
  have pair := List.all_eq_true.mp (List.all_eq_true.mp check p hp) p' hp'
  simpa [user, user', asks, asks'] using pair

/-- Ann sends what the form of her profile sends: a name, a password and a number. -/
def annUpdates : List (Label exactPlatform) :=
  annEnters ++ [
    .arrive { sid := 0, route := .updateDispl, body := .obj [("displayName", .str "Anna")] },
    .arrive (changeTo "n1"),
    .arrive { sid := 0, route := .updateMobile, body := .obj [("newMobile", .str "555")] }]

theorem profile_updates_sample :
    ∃ r : Row UserCol, r .user_id = .int 1 ∧
      r ∈ (run (server exactPlatform) ([0, 0, 0, 0, 0, 0, 0, 0, 0].map fun i => .settle i false)
        (run (server exactPlatform) annUpdates
          (startUp exactPlatform))).world.db.tables.user ∧
      r ∈ (run (server exactPlatform) ([5, 4, 3, 2, 1, 0, 2, 0, 0].map fun i => .settle i false)
        (run (server exactPlatform) annUpdates
          (startUp exactPlatform))).world.db.tables.user := by
  have exists_row : ∃ row ∈ (run (server exactPlatform) annUpdates
      (startUp exactPlatform)).world.db.tables.user, row .user_id = .int 1 := by decide +kernel
  obtain ⟨row, hr, hn⟩ := exists_row
  obtain ⟨r, id, mem, mem', -⟩ := (profile_updates_isolated exactPlatform annUpdates
    (plain_of_plainly (by decide +kernel)) 1 row hr hn).2 (asksApart_of_check (by decide +kernel))
    [0, 0, 0, 0, 0, 0, 0, 0, 0] [5, 4, 3, 2, 1, 0, 2, 0, 0]
    (List.isEmpty_iff.mp (by decide +kernel)) (List.isEmpty_iff.mp (by decide +kernel))
  exact ⟨r, id, mem, mem'⟩

end OneRoof
