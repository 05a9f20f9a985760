import OneRoof.Confinement
import OneRoof.Identity

/-!
# Updates of a profile

Six routes write one column of the row of their session's user. All but the upload
of a picture look the user up first, by the email of the session, and send their
update only when that finds somebody; the password route compares a hash as well.
What each of them has in flight is one of two things: a statement nobody waits for,
or the look-up whose callback sends the update.
-/

namespace OneRoof

open Sql Async Async.Prog Prog

variable {P : Platform}

/-- The column that each route about the own profile writes. -/
def Route.updates : Route → Option UserCol
  | .updateDispl => some .displayName
  | .updatePass => some .hash_pass
  | .updatePaymentMethod => some .payment_method
  | .updatePaymentUser => some .payment_username
  | .updateMobile => some .phone_num
  | .upload => some .user_pic
  | _ => none

/-- The update that the callback of the look-up sends, given the rows it found. -/
def grants (P : Platform) (c : Ctx) (u : SessionUser) (rows : List (Row UserCol)) :
    Option Stmt :=
  match c.req.route with
  | .updateDispl =>
    if rows.length ≠ 0 then
      some (.updateUserDisplayName (c.req.body.get "displayName") u.user_id)
    else none
  | .updatePaymentMethod =>
    if rows.length ≠ 0 then
      some (.updateUserPaymentMethod (c.req.body.get "newMethod") u.user_id)
    else none
  | .updatePaymentUser =>
    if rows.length ≠ 0 then
      some (.updateUserPaymentUsername (c.req.body.get "newUsername") u.user_id)
    else none
  | .updateMobile =>
    if rows.length ≠ 0 then some (.updateMobile (c.req.body.get "newMobile") u.user_id) else none
  | .updatePass => do
    let row ← rows.head?
    let valid ← isValidPassword P (row .hash_pass) (c.req.body.get "oldPass")
    if valid then
      let pass ← (c.req.body.get "newPass").toStr
      return .updateUserPass (P.hashSync pass c.req.salt) u.user_id
    else none
  | _ => none

/-- The update that a look-up in these tables would grant. -/
def granted (P : Platform) (c : Ctx) (u : SessionUser) (db : Database P.collate) : Option Stmt :=
  (exec P.collate (.getUser u.email) db).bind fun r => grants P c u r.1

section Handlers

variable {c : Ctx} {u : SessionUser}

theorem send_starts (answer : Answer) (user : Option SessionUser) :
    (Prog.send answer user).Starts none := by
  intro b
  cases b <;> rfl

theorem start_starts {s : Stmt} {rest : Prog} (hr : rest.Starts none) :
    (start s rest).Starts (some s) :=
  ⟨rfl, fun _ => rfl, hr⟩

/-- A callback that sends its update when the look-up found somebody. -/
theorem guarded_starts {stmt : Stmt} {rest refused caught : Prog} (hr : rest.Starts none)
    (hf : refused.Starts none) (hc : caught.Starts none)
    (granted : ∀ rows, grants P c u rows = if rows.length ≠ 0 then some stmt else none)
    (reply : Option (List (Row UserCol))) :
    (thenCatch (fun rows : List (Row UserCol) =>
      if rows.length ≠ 0 then start stmt rest else refused) caught reply).Starts
        (reply.bind (grants P c u)) := by
  cases reply with
  | none => exact hc
  | some rows =>
    apply Starts.recover _ hc
    rw [Option.bind_some, granted]
    dsimp only
    split
    · exact start_starts hr
    · exact hf

theorem updatePass_starts (route : c.req.route = .updatePass)
    (reply : Option (List (Row UserCol))) :
    (thenCatch (fun rows : List (Row UserCol) => match rows.head? with
      | some row =>
        act (.compareSync (row .hash_pass)) fun _ =>
          attempt (isValidPassword P (row .hash_pass) (c.req.body.get "oldPass")) fun valid =>
            if valid then
              attempt (c.req.body.get "newPass").toStr fun pass =>
                start (.updateUserPass (P.hashSync pass c.req.salt) u.user_id)
                  (Prog.send (.json u.js) (some u))
            else Prog.send (.status 401 "Wrong password") (some u)
      | none => Prog.send (.status 403 "You're not authorized to do that") (some u))
      (Prog.send (.status 400 "Error grabbing user information") (some u)) reply).Starts
        (reply.bind (grants P c u)) := by
  cases reply with
  | none => exact send_starts _ _
  | some rows =>
    apply Starts.recover _ (send_starts _ _)
    simp only [Option.bind_some, grants, route]
    cases rows.head? with
    | none => exact send_starts _ _
    | some row =>
      intro _
      simp only [Option.bind_eq_bind, Option.bind_some]
      cases isValidPassword P (row .hash_pass) (c.req.body.get "oldPass") with
      | none => rfl
      | some valid =>
        cases valid with
        | false => exact send_starts _ _
        | true =>
          simp only [attempt, Option.bind_some, if_true]
          cases (c.req.body.get "newPass").toStr with
          | none => rfl
          | some pass => exact start_starts (send_starts _ _)

/-- The five handlers look their user up twice and wait for the second answer. -/
theorem handler_grants (user : c.user = some u) (updates : c.req.route.updates ≠ none)
    (looks : c.req.route ≠ .upload) :
    ∃ k, handler P c =
        .issue (.getUser u.email) (fun _ => .done) (.issue (.getUser u.email) k .done) ∧
      ∀ reply, (k reply).Starts (reply.bind (grants P c u)) := by
  cases hr : c.req.route with
  | updateDispl =>
    refine ⟨_, by rw [handler, OneRoof.route, hr, user]; rfl, ?_⟩
    exact guarded_starts (send_starts _ _) (send_starts _ _) (send_starts _ _)
      fun rows => by rw [grants, hr]
  | updatePaymentMethod =>
    refine ⟨_, by rw [handler, OneRoof.route, hr, user]; rfl, ?_⟩
    exact guarded_starts rfl (send_starts _ _) (send_starts _ _) fun rows => by rw [grants, hr]
  | updatePaymentUser =>
    refine ⟨_, by rw [handler, OneRoof.route, hr, user]; rfl, ?_⟩
    exact guarded_starts rfl (send_starts _ _) (send_starts _ _) fun rows => by rw [grants, hr]
  | updateMobile =>
    refine ⟨_, by rw [handler, OneRoof.route, hr, user]; rfl, ?_⟩
    exact guarded_starts rfl (send_starts _ _) (send_starts _ _) fun rows => by rw [grants, hr]
  | updatePass =>
    refine ⟨_, by rw [handler, OneRoof.route, hr, user]; rfl, ?_⟩
    exact updatePass_starts hr
  | upload => exact absurd hr looks
  | _ => simp [hr, Route.updates] at updates

end Handlers

section Parts

/-- What a route about the own profile has in flight. -/
inductive Part (P : Platform) : Pending Stmt Stmt.Reply Act Ctx → Prop
  | loose (c : Ctx) (s : Stmt) : Part P ⟨c, s, fun _ => .done⟩
  | look {c : Ctx} {u : SessionUser} {k : Option (List (Row UserCol)) → Prog}
      (user : c.user = some u) (starts : ∀ reply, (k reply).Starts (reply.bind (grants P c u))) :
      Part P ⟨c, .getUser u.email, k⟩

/-- Everything that the profile routes have in flight is of that form. -/
def Parts (σ : Config P) : Prop :=
  ∀ p ∈ σ.pending, p.ctx.req.route.updates ≠ none → Part P p

variable {c : Ctx}

theorem upload_starts (route : c.req.route = .upload) : ∃ o, (handler P c).Starts o := by
  rw [handler, OneRoof.route, route]
  unfold upload
  cases c.user with
  | none => exact ⟨none, send_starts _ _⟩
  | some u =>
    cases c.req.file with
    | none => exact ⟨none, send_starts _ _⟩
    | some filename =>
      cases renamed : c.req.renamed with
      | false =>
        simp only [withUser, attempt, Bool.false_eq_true, if_false]
        exact ⟨none, (send_starts _ _).recover (send_starts _ _)⟩
      | true =>
        simp only [withUser, attempt, if_true]
        exact ⟨_, (start_starts (send_starts _ _)).recover (send_starts _ _)⟩

/-- Without a session user the profile routes only throw. -/
theorem unnamed_starts (nobody : c.user = none) (updates : c.req.route.updates ≠ none) :
    (handler P c).Starts none := by
  cases hr : c.req.route with
  | updateDispl | updatePass | updatePaymentMethod | updatePaymentUser | updateMobile | upload =>
    rw [handler, OneRoof.route, hr, nobody]
    exact send_starts _ _
  | _ => simp [hr, Route.updates] at updates

theorem starts_parts {o : Option Stmt} {prog : Prog} (starts : prog.Starts o) (w : World P) :
    ∀ p ∈ (enter (server P) c prog ⟨w, []⟩).pending, Part P p := by
  intro p hp
  rw [enter_starts starts, List.nil_append, Option.mem_toList, Option.map_eq_some_iff] at hp
  obtain ⟨s, -, rfl⟩ := hp
  exact .loose c s

theorem handler_parts (updates : c.req.route.updates ≠ none) (w : World P) :
    ∀ p ∈ (enter (server P) c (handler P c) ⟨w, []⟩).pending, Part P p := by
  cases user : c.user with
  | none => exact starts_parts (unnamed_starts user updates) w
  | some u =>
    by_cases uploads : c.req.route = .upload
    · obtain ⟨o, starts⟩ := upload_starts (P := P) uploads
      exact starts_parts starts w
    · obtain ⟨k, waits, starts⟩ := handler_grants (P := P) user updates uploads
      rw [waits]
      intro p hp
      simp only [enter, List.nil_append, List.singleton_append, List.mem_cons, List.not_mem_nil,
        or_false] at hp
      rcases hp with rfl | rfl
      · exact .loose c _
      · exact .look user starts

/-- The five routes that look up start with nothing else. -/
theorem handler_looks (updates : c.req.route.updates ≠ none) (looks : c.req.route ≠ .upload)
    (w : World P) : ∀ p ∈ (enter (server P) c (handler P c) ⟨w, []⟩).pending,
      p.stmt.isSelect = true := by
  cases user : c.user with
  | none =>
    rw [enter_starts (unnamed_starts user updates)]
    exact fun p hp => absurd hp List.not_mem_nil
  | some u =>
    obtain ⟨k, waits, -⟩ := handler_grants (P := P) user updates looks
    rw [waits]
    simp [enter, Stmt.isSelect]

/-- A callback of a profile route leaves only statements nobody waits for. -/
theorem Part.callback {p : Pending Stmt Stmt.Reply Act Ctx} (part : Part P p)
    (reply : Option p.stmt.Reply) : ∃ o, (p.k reply).Starts o := by
  cases part with
  | loose => exact ⟨none, rfl⟩
  | look user starts => exact ⟨_, starts reply⟩

theorem enter_parts {prog : Prog} {w : World P} {ps : List (Pending Stmt Stmt.Reply Act Ctx)}
    (old : ∀ p ∈ ps, p.ctx.req.route.updates ≠ none → Part P p)
    (new : c.req.route.updates ≠ none →
      ∀ p ∈ (enter (server P) c prog ⟨w, []⟩).pending, Part P p) :
    Parts (enter (server P) c prog ⟨w, ps⟩) := by
  have frame := enter_frame (server P) c prog w ps []
  rw [List.append_nil] at frame
  rw [frame]
  intro p hp updates
  rcases List.mem_append.mp hp with hp | hp
  · exact old p hp updates
  · obtain ⟨more, pending, ctx⟩ := enter_pending (server P) c prog ⟨w, []⟩
    have mem := hp
    rw [pending, List.nil_append] at mem
    exact new (ctx p mem ▸ updates) p hp

theorem step_parts (l : Label P) (σ : Config P) (parts : Parts σ) :
    Parts (step (server P) l σ) := by
  cases l with
  | arrive q =>
    rw [arrive_eq]
    exact enter_parts parts fun updates => handler_parts updates _
  | disturb db => exact parts
  | settle i lost =>
    simp only [step]
    have rest : ∀ p ∈ σ.pending.eraseIdx i, p.ctx.req.route.updates ≠ none → Part P p :=
      fun p hp => parts p (List.mem_of_mem_eraseIdx hp)
    have callback : ∀ p ∈ σ.pending, ∀ reply (w : World P),
        Parts (enter (server P) p.ctx (p.k reply) ⟨w, σ.pending.eraseIdx i⟩) := by
      intro p hp reply w
      apply enter_parts rest
      intro updates
      obtain ⟨o, starts⟩ := (parts p hp updates).callback reply
      exact starts_parts starts w
    rcases server_settle_cases i lost σ with same | ⟨p, hp, ⟨hs, -⟩ | ⟨r, db, -, -, hs⟩⟩
    · rw [same]
      exact parts
    · rw [hs]
      exact callback p (List.mem_of_getElem? hp) none _
    · rw [hs]
      exact callback p (List.mem_of_getElem? hp) (some r) _

end Parts

section Rows

/-- What a statement makes of the row of user `n`. -/
def Stmt.rewrites (s : Stmt) (n : Int) (r : Row UserCol) : Row UserCol :=
  match s.setsUser with
  | some (col, v, some m) => if m = n then Function.update r col (store col v.lit.value) else r
  | _ => r

/-- A column that the statement does not set for the user stays. -/
theorem rewrites_kept {s : Stmt} {n : Int} {d : UserCol}
    (other : ∀ v, s.setsUser ≠ some (d, v, some n)) (row : Row UserCol) :
    s.rewrites n row d = row d := by
  unfold Stmt.rewrites
  cases writes : s.setsUser with
  | none => rfl
  | some w =>
    obtain ⟨col, v, id⟩ := w
    cases id with
    | none => rfl
    | some m =>
      by_cases same : m = n
      · subst same
        refine (congrFun (if_pos rfl) d).trans (Function.update_of_ne ?_ _ _)
        rintro rfl
        exact other v writes
      · exact congrFun (if_neg same) d

theorem rewrites_id (s : Stmt) (n : Int) (row : Row UserCol) :
    s.rewrites n row .user_id = row .user_id :=
  rewrites_kept (fun _ => Stmt.setsUser_id) row

variable {c : Ctx} {s : Stmt} {db db' : Database P.collate} {r : s.Reply} {n : Int}

/-- A lawful statement changes the row of a user by its own update only. -/
theorem row_exec (lawful : Lawful P c s db.tables.accounts)
    (he : exec P.collate s db = some (r, db')) {row : Row UserCol} (hr : row ∈ db.tables.user)
    (hn : row .user_id = .int n) : s.rewrites n row ∈ db'.tables.user := by
  have effect := exec_effect he
  generalize db'.tables = t at effect ⊢
  generalize db'.next = m at effect
  cases effect with
  | @setUser _ col v id sets writes parsed =>
    obtain ⟨scalar, -, ⟨u, user, rfl⟩, -⟩ := lawful.sends.updates lawful.plain writes
    rw [setTo_scalar _ scalar] at parsed
    cases parsed
    obtain ⟨m, hm, -⟩ := lawful.user_id user
    simp only [update_written, Stmt.rewrites, writes, hm]
    refine List.mem_map.mpr ⟨row, hr, ?_⟩
    by_cases same : m = n
    · subst same
      simp [written, hn, idLit, eqLit]
    · simp [written, hn, idLit, eqLit, same, Ne.symm same]
  | select reads =>
    have none : s.setsUser = none := by cases s <;> simp_all [Stmt.isSelect, Stmt.setsUser]
    simp only [Stmt.rewrites, none]
    exact hr
  | createUser => exact List.mem_append_left _ hr
  | setTask writes =>
    have none : s.setsUser = none := by cases s <;> simp_all [Stmt.setsTask, Stmt.setsUser]
    simp only [Stmt.rewrites, none]
    exact hr
  | _ => exact hr

/-- The look-up by the email of a session comes to the session's own row first. -/
theorem own_row_first {u : SessionUser} (named : Identified P.collate db.tables.accounts u)
    {rows : List (Row UserCol)} (he : exec P.collate (.getUser u.email) db = some (rows, db'))
    {row : Row UserCol} (head : rows.head? = some row) :
    ∃ n, u.user_id = some n ∧ row ∈ db.tables.user ∧ row .user_id = .int n := by
  obtain ⟨scalar, n, a, hn, ha, -, kind⟩ := named
  obtain ⟨mem, given, -, first⟩ := getUser_head scalar he head
  rcases kind with first' | ⟨missing, -⟩
  · cases first.symm.trans first'
    exact ⟨n, hn, mem, ha⟩
  · exact absurd missing given

end Rows

end OneRoof
