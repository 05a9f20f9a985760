import OneRoof.Accounts
import OneRoof.Safety

/-!
# Who a session is, and who wrote what

As long as the fields of every request are scalars, apart from the lists of users
that some routes expect, each session names an account for as long as it lasts,
each account is of one of two kinds, and whatever is inserted on behalf of a
session carries the id of its user. All of this is kept by every step, so it
holds however requests interleave.
-/

namespace OneRoof

open Sql Async Async.Prog Prog

variable {P : Platform}

/-- The fields of a body that are lists of users. -/
def listFields : List String := ["users", "taskOwner", "group_members"]

/-- Every field is a scalar, but for the lists of users. -/
structure Request.Plain (q : Request) : Prop where
  body : ∀ key, key ∉ listFields → (q.body.get key).isScalar = true
  query : ∀ key, (q.query.get key).isScalar = true

section Scalars

variable {q : Request}

theorem credential_scalar (plain : q.Plain) (field : String) (single : field ∉ listFields) :
    (credential q field).isScalar = true := by
  unfold credential
  split
  · exact plain.body field single
  · exact plain.query field

theorem optional_scalar (plain : q.Plain) (key : String) {field : String}
    (single : field ∉ listFields) : (optional q key field).isScalar = true := by
  unfold optional
  split
  · exact plain.body field single
  · rfl

end Scalars

section Updates

variable {c : Ctx} {s : Stmt}

/-- An update of `tblUSER` writes one scalar to one profile column of the session's user. -/
theorem Sends.updates (sends : Sends P c s) (plain : c.req.Plain) {col : UserCol} {v : JsVal}
    {id : Option Int} (writes : s.setsUser = some (col, v, id)) :
    v.isScalar = true ∧ col.isProfile = true ∧ (∃ u, c.user = some u ∧ id = u.user_id) ∧
      (col = .hash_pass → v.lit ≠ .null ∧ ∃ pass, s = .updateUserPass pass id) := by
  have field : ∀ key, key ∉ listFields → (c.req.body.get key).isScalar = true := plain.body
  cases sends with
  | select reads => cases s <;> simp_all [Stmt.isSelect, Stmt.setsUser]
  | updateProfPic _ user => cases writes; exact ⟨rfl, rfl, ⟨_, user, rfl⟩, by simp⟩
  | updateUserDisplayName _ user =>
    cases writes
    exact ⟨field _ (by decide), rfl, ⟨_, user, rfl⟩, by simp⟩
  | updateUserPass _ user =>
    cases writes
    exact ⟨rfl, rfl, ⟨_, user, rfl⟩, fun _ => ⟨by simp [JsVal.lit, JsVal.quoted], _, rfl⟩⟩
  | updateUserPaymentMethod _ user =>
    cases writes
    exact ⟨field _ (by decide), rfl, ⟨_, user, rfl⟩, by simp⟩
  | updateUserPaymentUsername _ user =>
    cases writes
    exact ⟨field _ (by decide), rfl, ⟨_, user, rfl⟩, by simp⟩
  | updateMobile _ user =>
    cases writes
    exact ⟨field _ (by decide), rfl, ⟨_, user, rfl⟩, by simp⟩
  | _ => cases writes

theorem Sends.not_password (sends : Sends P c s) (plain : c.req.route.identifies = false)
    (pass : String) (id : Option Int) : s ≠ .updateUserPass pass id := by
  rintro rfl
  cases sends with
  | select reads => cases reads
  | updateUserPass route => simp [route, Route.identifies] at plain

theorem Sends.creator {taskID : String} {taskOwnerID : JsVal} {taskCreatorID : Option Int}
    (sends : Sends P c (.updateUserTaskTable taskID taskOwnerID taskCreatorID)) :
    ∃ u, c.user = some u ∧ taskCreatorID = u.user_id := by
  generalize hs : Stmt.updateUserTaskTable taskID taskOwnerID taskCreatorID = s at sends
  cases sends with
  | select reads => subst hs; cases reads
  | updateUserTaskTable route user => exact ⟨_, user, (Stmt.updateUserTaskTable.inj hs).2.2⟩
  | _ => cases hs

end Updates

/-- What a request may send while the tables hold these accounts. -/
structure Lawful (P : Platform) (c : Ctx) (s : Stmt) (accounts : List Account) : Prop where
  sends : Sends P c s
  plain : c.req.Plain
  session : ∀ u, c.user = some u → Identified P.collate accounts u
  password : ∀ pass id, s = .updateUserPass pass id →
    ∃ n a, id = some n ∧ a ∈ accounts ∧ a.user_id = .int n ∧ a.email ≠ .null

/-- A comment was inserted by a request of the session user it names as its owner. -/
def CommentOf (log : List Event) (r : Row CommentCol) : Prop :=
  ∃ c u n commentDescr creatorID taskID stamp, ∃ packet : Packet,
    .completed c (.addComment commentDescr creatorID taskID stamp) packet ∈ log ∧
    c.user = some u ∧ u.user_id = some n ∧ r .comment_id = .int packet.insertId ∧
    r .comment_owner_id = .int n

/-- A task was linked by a request of the session user it names as its creator. -/
def LinkOf (log : List Event) (r : Row UserTaskCol) : Prop :=
  ∃ c u n taskID taskOwnerID taskCreatorID, ∃ packet : Packet,
    .completed c (.updateUserTaskTable taskID taskOwnerID taskCreatorID) packet ∈ log ∧
    c.user = some u ∧ u.user_id = some n ∧ r .user_task_id = .int packet.insertId ∧
    r .task_creator_id = .int n

/-- What every step keeps. -/
structure Sound (w : World P) : Prop where
  kinds : ∀ r ∈ w.db.tables.user, LocalRow r ∨ FacebookRow r
  sessions : ∀ sid u, w.store sid = some u → Identified P.collate w.db.tables.accounts u
  hashes : ∀ c hash, .compared c hash ∈ w.log → hash ≠ .null
  comments : ∀ r ∈ w.db.tables.comment, CommentOf w.log r
  links : ∀ r ∈ w.db.tables.userTask, LinkOf w.log r

section Exec

variable {c : Ctx} {s : Stmt} {db db' : Database P.collate} {r : s.Reply}

/-- Only `createUser` changes the accounts. -/
theorem accounts_same (lawful : Lawful P c s db.tables.accounts)
    (he : exec P.collate s db = some (r, db')) (other : ∀ user, s ≠ .createUser user) :
    db'.tables.accounts = db.tables.accounts := by
  have effect := exec_effect he
  generalize db'.tables = t at effect ⊢
  generalize db'.next = n at effect
  cases effect with
  | setUser writes parsed =>
    obtain ⟨scalar, profile, -⟩ := lawful.sends.updates lawful.plain writes
    rw [setTo_scalar _ scalar] at parsed
    cases parsed
    simp only [Tables.accounts, accounts_update profile]
  | createUser => exact absurd rfl (other _)
  | _ => rfl

theorem accounts_exec (lawful : Lawful P c s db.tables.accounts)
    (he : exec P.collate s db = some (r, db')) : db.tables.accounts <+: db'.tables.accounts := by
  by_cases creates : ∃ user, s = .createUser user
  · obtain ⟨user, rfl⟩ := creates
    obtain ⟨row, -, inserted, -⟩ := exec_createUser he
    rw [Tables.accounts, Tables.accounts, inserted, List.map_append]
    exact List.prefix_append _ _
  · rw [accounts_same lawful he fun user h => creates ⟨user, h⟩]

/-- The row a lawful `createUser` inserts is of one of the two kinds. -/
theorem kind_inserted {user : NewUser} (lawful : Lawful P c (.createUser user) db.tables.accounts)
    {n : Nat} {row : Row UserCol} (filled : insertUser P.collate user n = some row) :
    LocalRow row ∨ FacebookRow row := by
  have plain := lawful.plain
  cases lawful.sends with
  | select reads => cases reads
  | createLocal route given =>
    have scalar := credential_scalar plain "email" (by decide)
    refine Or.inl ((insertUser_local ?_ filled).2 (JsVal.lit_of_truthy scalar given) nofun)
    simp only [List.forall_mem_cons]
    exact ⟨scalar, plain.body _ (by decide), rfl, optional_scalar plain _ (by decide),
      optional_scalar plain _ (by decide), optional_scalar plain _ (by decide), nofun⟩
  | createFacebook route => exact Or.inr (insertUser_facebook (Profile.id_fits _) filled).2

/-- Only one row has a given number in its key. -/
theorem eq_of_user_id (db : Database P.collate) {r r' : Row UserCol} (hr : r ∈ db.tables.user)
    (hr' : r' ∈ db.tables.user) {n : Int} (hn : r' .user_id = .int n)
    (hit : eqLit P.collate (r .user_id) (.num n) = some true) : r = r' := by
  refine db.sound.user_key.eq_of_key hr hr' ?_
  obtain ⟨m, hm⟩ := int_cell (c := UserCol.user_id) rfl rfl db.sound.user_typed hr
  rw [hm] at hit ⊢
  rw [hn]
  simpa [eqLit, eqValue] using hit

theorem kinds_exec (lawful : Lawful P c s db.tables.accounts)
    (kinds : ∀ r ∈ db.tables.user, LocalRow r ∨ FacebookRow r)
    (he : exec P.collate s db = some (r, db')) :
    ∀ r ∈ db'.tables.user, LocalRow r ∨ FacebookRow r := by
  have effect := exec_effect he
  generalize db'.tables = t at effect ⊢
  generalize db'.next = n at effect
  cases effect with
  | @setUser _ col v id sets writes parsed =>
    obtain ⟨scalar, profile, -, password⟩ := lawful.sends.updates lawful.plain writes
    rw [setTo_scalar _ scalar] at parsed
    cases parsed
    intro r' hr'
    obtain ⟨r, hr, rfl⟩ := List.mem_map.mp hr'
    split
    · rename_i hit
      rcases kinds r hr with kind | kind
      · refine Or.inl (kind.update profile ?_)
        rintro rfl
        obtain ⟨s, hs⟩ := store_text (c := UserCol.hash_pass) (m := 64) rfl
          (lit_value_ne_null (password rfl).1)
        intro h
        cases hs.symm.trans h
      · refine Or.inr (kind.update profile ?_)
        rintro rfl
        obtain ⟨-, pass, rfl⟩ := password rfl
        obtain ⟨n, a, rfl, ha, hn, mailed⟩ := lawful.password pass id rfl
        obtain ⟨r', hr', rfl⟩ := List.mem_map.mp ha
        have hit' := (Cond.hits_iff P.collate).mp hit
        rw [← eq_of_user_id db hr hr' hn hit'] at mailed
        exact mailed kind.email
    · exact kinds r hr
  | createUser filled =>
    intro r' hr'
    rcases List.mem_append.mp hr' with old | new
    · exact kinds r' old
    · rw [List.mem_singleton.mp new]
      exact kind_inserted lawful filled
  | _ => exact kinds

/-- A session's user has an id that a column can hold. -/
theorem Lawful.user_id (lawful : Lawful P c s db.tables.accounts) {u : SessionUser}
    (user : c.user = some u) : ∃ n, u.user_id = some n ∧ clip n = n := by
  obtain ⟨n, a, hn, ha, mem, -⟩ := (lawful.session u user).named
  obtain ⟨r', hr', rfl⟩ := List.mem_map.mp mem
  have fit := db.sound.user_typed r' hr' .user_id (Columns.mem_all _)
  have hid : r' .user_id = .int n := ha
  rw [hid] at fit
  exact ⟨n, hn, clip_of_range (by simpa [fits, Columns.type] using fit)⟩

theorem commentRow_owner {m : Nat} {commentDescr taskID : JsVal} {n : Int} {row : Row CommentCol}
    (filled : commentRow P.collate m commentDescr (.num n) taskID = some row) :
    row .comment_id = .int m ∧ row .comment_owner_id = .int (clip n) :=
  ⟨newRow_key filled (by simp),
    newRow_cell filled (c := .comment_owner_id) (v := .num n) (by simp) (by simp) rfl⟩

theorem userTaskRow_creator {m : Nat} {taskID : String} {taskOwnerID : JsVal} {n : Int}
    {row : Row UserTaskCol}
    (filled : userTaskRow P.collate m taskID taskOwnerID (some n) = some row) :
    row .user_task_id = .int m ∧ row .task_creator_id = .int (clip n) :=
  ⟨newRow_key filled (by simp),
    newRow_cell filled (c := .task_creator_id) (v := .num n) (by simp) (by simp [JsVal.ofInt]) rfl⟩

theorem CommentOf.later {log : List Event} {r : Row CommentCol} (h : CommentOf log r)
    (more : List Event) : CommentOf (log ++ more) r := by
  obtain ⟨c, u, n, d, o, t, st, packet, mem, rest⟩ := h
  exact ⟨c, u, n, d, o, t, st, packet, List.mem_append_left more mem, rest⟩

theorem LinkOf.later {log : List Event} {r : Row UserTaskCol} (h : LinkOf log r)
    (more : List Event) : LinkOf (log ++ more) r := by
  obtain ⟨c, u, n, t, o, k, packet, mem, rest⟩ := h
  exact ⟨c, u, n, t, o, k, packet, List.mem_append_left more mem, rest⟩

theorem comments_exec (lawful : Lawful P c s db.tables.accounts) {log : List Event}
    (comments : ∀ r ∈ db.tables.comment, CommentOf log r)
    (he : exec P.collate s db = some (r, db')) :
    ∀ r' ∈ db'.tables.comment, CommentOf (log ++ [.completed c s r]) r' := by
  have effect := exec_effect he
  generalize ht : db'.tables = t at effect ⊢
  generalize hn : db'.next = n at effect
  have kept : ∀ r' ∈ db.tables.comment, CommentOf (log ++ [.completed c s r]) r' :=
    fun r' hr' => (comments r' hr').later _
  cases effect with
  | @addComment commentDescr creatorID taskID stamp row filled =>
    intro r' hr'
    rcases List.mem_append.mp hr' with old | new
    · exact kept r' old
    have packet : (r : Packet) = ⟨1, db.next.comment⟩ := by
      obtain ⟨row', -, he⟩ := Option.bind_eq_some_iff.mp he
      exact (bind_commit he).2.2.symm
    cases lawful.sends with
    | select reads => cases reads
    | addComment route user descr task =>
      obtain ⟨k, hk, range⟩ := lawful.user_id user
      rw [hk] at filled
      obtain ⟨id, owner⟩ := commentRow_owner filled
      refine ⟨c, _, k, _, _, _, _, r, List.mem_append_right _ (List.mem_singleton_self _), user,
        hk, ?_, ?_⟩
      · rw [List.mem_singleton.mp new, packet]
        exact id
      · rw [List.mem_singleton.mp new]
        exact owner.trans (by rw [range])
  | deleteComment => exact fun r' hr' => kept r' (List.mem_filter.mp hr').1
  | _ => exact kept

theorem links_exec (lawful : Lawful P c s db.tables.accounts) {log : List Event}
    (links : ∀ r ∈ db.tables.userTask, LinkOf log r)
    (he : exec P.collate s db = some (r, db')) :
    ∀ r' ∈ db'.tables.userTask, LinkOf (log ++ [.completed c s r]) r' := by
  have effect := exec_effect he
  generalize ht : db'.tables = t at effect ⊢
  generalize hn : db'.next = n at effect
  have kept : ∀ r' ∈ db.tables.userTask, LinkOf (log ++ [.completed c s r]) r' :=
    fun r' hr' => (links r' hr').later _
  cases effect with
  | @updateUserTaskTable taskID taskOwnerID taskCreatorID row filled =>
    intro r' hr'
    rcases List.mem_append.mp hr' with old | new
    · exact kept r' old
    have packet : (r : Packet) = ⟨1, db.next.userTask⟩ := by
      obtain ⟨row', -, he⟩ := Option.bind_eq_some_iff.mp he
      exact (bind_commit he).2.2.symm
    obtain ⟨u, user, created⟩ := lawful.sends.creator
    obtain ⟨k, hk, range⟩ := lawful.user_id user
    rw [created, hk] at filled
    obtain ⟨id, creator⟩ := userTaskRow_creator filled
    refine ⟨c, u, k, _, _, _, r, List.mem_append_right _ (List.mem_singleton_self _), user,
      hk, ?_, ?_⟩
    · rw [List.mem_singleton.mp new, packet]
      exact id
    · rw [List.mem_singleton.mp new, creator, range]
  | _ => exact kept

end Exec

/-- The session users that may be saved, and the hashes that may be compared. -/
def Act.Lawful (collate : String → String) (accounts : List Account) : Act → Prop
  | .send _ user => ∀ u, user = some u → Identified collate accounts u
  | .sendGathered user => ∀ u, user = some u → Identified collate accounts u
  | .compareSync hash => hash ≠ .null
  | .push _ _ => True

theorem Sound.answer {w : World P} (sound : Sound w) {c : Ctx} {answer : Answer}
    {user : Option SessionUser}
    (named : ∀ u, user = some u → Identified P.collate w.db.tables.accounts u) :
    Sound (w.answer c answer user).2 := by
  unfold World.answer
  split
  · exact sound
  refine ⟨sound.kinds, fun sid u hu => ?_, fun c' hash mem => ?_,
    fun r hr => (sound.comments r hr).later _, fun r hr => (sound.links r hr).later _⟩
  · simp only [Function.update_apply] at hu
    split at hu
    · exact named u hu
    · exact sound.sessions sid u hu
  · rcases List.mem_append.mp mem with old | new
    · exact sound.hashes c' hash old
    · cases List.mem_singleton.mp new

theorem Sound.perform {w : World P} (sound : Sound w) {c : Ctx} {a : Act}
    (lawful : a.Lawful P.collate w.db.tables.accounts) : Sound (World.perform c a w).2 := by
  cases a with
  | send answer user => exact sound.answer lawful
  | sendGathered user => exact sound.answer lawful
  | push entry total => exact ⟨sound.1, sound.2, sound.3, sound.4, sound.5⟩
  | compareSync hash =>
    refine ⟨sound.kinds, sound.sessions, fun c' hash' mem => ?_,
      fun r hr => (sound.comments r hr).later _, fun r hr => (sound.links r hr).later _⟩
    rcases List.mem_append.mp mem with old | new
    · exact sound.hashes c' hash' old
    · cases List.mem_singleton.mp new
      exact lawful

/-- Accounts are only added, and sessions name them. -/
def identity (P : Platform) : Discipline (server P) where
  Good := Sound
  Le w w' := w.db.tables.accounts <+: w'.db.tables.accounts
  Allowed c s w := Lawful P c s w.db.tables.accounts
  Permit _ a w := a.Lawful P.collate w.db.tables.accounts
  refl _ := List.prefix_rfl
  trans := List.IsPrefix.trans
  mono := fun le lawful => ⟨lawful.sends, lawful.plain,
    fun u user => (lawful.session u user).later le, fun pass id hs => by
      obtain ⟨n, a, hn, ha, hid, mailed⟩ := lawful.password pass id hs
      exact ⟨n, a, hn, le.subset ha, hid, mailed⟩⟩
  exec_good := by
    intro c s w r w' sound lawful he
    obtain ⟨⟨r', db⟩, hx, hw⟩ := Option.map_eq_some_iff.mp he
    cases hw
    have le := accounts_exec lawful hx
    refine ⟨⟨kinds_exec lawful sound.kinds hx, fun sid u hu => (sound.sessions sid u hu).later le,
      fun c' hash mem => ?_, comments_exec lawful sound.comments hx,
      links_exec lawful sound.links hx⟩, le⟩
    rcases List.mem_append.mp mem with old | new
    · exact sound.hashes c' hash old
    · cases List.mem_singleton.mp new
  refuse_good := by
    intro c s w sound
    refine ⟨⟨sound.kinds, sound.sessions, fun c' hash mem => ?_,
      fun r hr => (sound.comments r hr).later _, fun r hr => (sound.links r hr).later _⟩,
      List.prefix_rfl⟩
    rcases List.mem_append.mp mem with old | new
    · exact sound.hashes c' hash old
    · cases List.mem_singleton.mp new
  perform_good := by
    intro c a w sound lawful
    refine ⟨sound.perform lawful, ?_⟩
    rw [perform_db]

section Handlers

variable {c : Ctx} {w : World P}

/-- A request with scalar fields whose session names an account. -/
structure Ctx.Known (c : Ctx) (w : World P) : Prop where
  plain : c.req.Plain
  session : ∀ u, c.user = some u → Identified P.collate w.db.tables.accounts u

theorem Ctx.Known.later {w' : World P} (known : c.Known w) (le : (identity P).Le w w') :
    c.Known w' :=
  ⟨known.plain, fun u user => (known.session u user).later le⟩

theorem Ctx.Known.allowed (known : c.Known w) {s : Stmt} (sends : Sends P c s)
    (other : ∀ pass id, s ≠ .updateUserPass pass id) : (identity P).Allowed c s w :=
  ⟨sends, known.plain, known.session, fun pass id hs => absurd hs (other pass id)⟩

theorem Ctx.Known.reads (known : c.Known w) {s : Stmt} (reads : s.isSelect = true) :
    (identity P).Allowed c s w :=
  known.allowed (.select reads) (by rintro pass id rfl; cases reads)

/-- The answers that leave the session as it is. -/
theorem Ctx.Known.send (known : c.Known w) (answer : Answer) :
    (identity P).Safe c (Prog.send answer c.user) w :=
  safe_send known.session

theorem handler_identity (known : c.Known w) (sound : Sound w)
    (ordinary : c.req.route.identifies = false) :
    (identity P).Safe c (OneRoof.route P c) w := by
  refine acts_safe (𝒟 := identity P) (route_issues P c) (route_acts P c ordinary) sound
    (fun s w' le sends => ?_) fun a w' le plain => ?_
  · exact (known.later le).allowed sends (sends.not_password ordinary)
  · have keeps : ∀ user, c.Keeps user → ∀ u, user = some u →
        Identified P.collate w'.db.tables.accounts u := by
      intro user keeps u' hu'
      obtain ⟨u, hu, same⟩ := keeps u' hu'
      exact ((known.later le).session u hu).same same
    cases a with
    | send answer user => exact keeps user plain
    | sendGathered user => exact keeps user plain
    | compareSync hash => exact absurd plain id
    | push entry total => trivial

/-- A row that was found by email is the user of a local account. -/
theorem local_of_found {email : JsVal} {db db' : Database P.collate} {rows : List (Row UserCol)}
    {row : Row UserCol} (kinds : ∀ r ∈ db.tables.user, LocalRow r ∨ FacebookRow r)
    (scalar : email.isScalar = true)
    (he : exec P.collate (.getUser email) db = some (rows, db')) (head : rows.head? = some row) :
    LocalRow row := by
  obtain ⟨mem, -, equal, -⟩ := getUser_head scalar he head
  exact (kinds row mem).resolve_right fun kind => eqLit_ne_null equal kind.email

theorem ofRow_identified {email : JsVal} {db db' : Database P.collate} {rows : List (Row UserCol)}
    {row : Row UserCol} (scalar : email.isScalar = true)
    (he : exec P.collate (.getUser email) db = some (rows, db')) (head : rows.head? = some row) :
    Identified P.collate db.tables.accounts (SessionUser.ofRow row) := by
  obtain ⟨mem, -, equal, first⟩ := getUser_head scalar he head
  obtain ⟨n, hn, hid⟩ := cellInt_user_id mem
  exact ⟨cellJs_scalar _, n, account row, hn, hid, List.mem_map_of_mem mem,
    Or.inl ((firstWith_row mem equal).trans first)⟩

theorem login_identity (known : c.Known w) :
    (identity P).Safe c (login P c.req c.user) w := by
  unfold login withCredentials
  split
  · have scalar := credential_scalar known.plain "email" (by decide)
    refine safe_getUser (known.reads rfl) (fun _ _ _ => trivial)
      fun w' rows db _ good he later _ => ?_
    have same : db = w'.db := selectUser_same he
    subst same
    simp only [thenRun]
    cases head : rows.head? with
    | none => exact (known.later later).send _
    | some row =>
      refine safe_attempt fun _ _ =>
        ⟨(local_of_found good.kinds scalar he head).hash_pass, safe_attempt fun valid _ => ?_⟩
      split
      · refine safe_send fun u hu => ?_
        cases hu
        exact ofRow_identified scalar he head
      · exact safe_send (known.later later).session
  · exact known.send _

theorem updatePass_identity (known : c.Known w) (route : c.req.route = .updatePass) :
    (identity P).Safe c (updatePass P c.req c.user) w := by
  refine safe_withUser fun u hu => ?_
  have reply : ∀ (w' : World P) answer, (identity P).Le w w' →
      (identity P).Safe c (Prog.send answer (some u)) w' := fun w' answer later =>
    hu ▸ (known.later later).send answer
  refine safe_getUserCatch (known.reads rfl) (fun w' later _ => reply w' _ later)
    fun w' rows db _ good he later _ => ?_
  have scalar := (known.session u hu).scalar
  have same : db = w'.db := selectUser_same he
  subst same
  cases head : rows.head? with
  | none => exact reply _ _ later
  | some row =>
    refine ⟨(local_of_found good.kinds scalar he head).hash_pass, safe_attempt fun valid _ => ?_⟩
    split
    · refine safe_attempt fun pass printed => safe_start ?_ (reply _ _ later)
      refine ⟨.updateUserPass route hu printed, known.plain, (known.later later).session, ?_⟩
      rintro _ _ ⟨⟩
      obtain ⟨-, n, a, hn, ha, mem, kind⟩ := (known.later later).session u hu
      obtain ⟨-, given, -⟩ := getUser_head scalar he head
      rcases kind with first | ⟨missing, -⟩
      · exact ⟨n, a, hn, mem, ha, eqLit_ne_null (firstWith_email first).2⟩
      · exact absurd missing given
    · exact reply _ _ later

theorem signup_identity (known : c.Known w) (route : c.req.route = .signup) :
    (identity P).Safe c (signup P c.req c.user) w := by
  unfold signup withCredentials
  split
  · rename_i given
    have scalar := credential_scalar known.plain "email" (by decide)
    refine safe_attempt fun same _ => ?_
    split
    · refine safe_getUser (known.reads rfl) (fun _ _ _ => trivial)
        fun w₁ rows db _ _ _ later₁ _ => ?_
      have known₁ := known.later later₁
      simp only [thenRun]
      split
      · refine safe_attempt fun hashPass _ => safe_attempt fun _ _ => ?_
        split
        · trivial
        refine safe_attempt fun _ _ => safe_thenCatch
          (known₁.allowed (.createLocal route given.1) (by simp))
          (fun w₂ later₂ _ => (known₁.later later₂).send _) fun w₂ _ db _ _ _ later₂ _ => ?_
        have known₂ := known₁.later later₂
        refine safe_getUser (known₂.reads rfl) (fun _ _ _ => trivial)
          fun w₃ rows db _ _ he later₃ _ => ?_
        have same : db = w₃.db := selectUser_same he
        subst same
        refine safe_attempt fun row head => safe_send fun u hu => ?_
        cases hu
        obtain ⟨mem, -, -, first⟩ := getUser_head scalar he head
        obtain ⟨n, hn, hid⟩ := cellInt_user_id mem
        exact ⟨scalar, n, account row, hn, hid, List.mem_map_of_mem mem, Or.inl first⟩
      · exact known₁.send _
    · exact known.send _
  · exact known.send _

theorem facebookCallback_identity (known : c.Known w) {grant : Option (Profile × String)}
    (route : c.req.route = .facebookCallback grant) :
    (identity P).Safe c (facebookCallback c.user grant) w := by
  cases grant with
  | none => exact known.send _
  | some g =>
    obtain ⟨profile, token⟩ := g
    refine safe_start (known.reads rfl) (safe_thenRun (known.reads rfl)
      fun w' rows db _ good he later _ => ?_)
    have known' := known.later later
    cases head : rows.head? with
    | none =>
      refine safe_attempt fun email _ => safe_thenCatch
        (known'.allowed (.createFacebook route) nofun)
        (fun w'' later' _ => (known'.later later').send _)
        fun w'' r db' _ _ he' _ _ => safe_send fun u hu => ?_
      cases hu
      obtain ⟨row, filled, inserted, hr⟩ := exec_createUser he'
      have hrow := (insertUser_facebook profile.id_fits filled).1
      have mem : account row ∈ db'.tables.accounts := by
        rw [Tables.accounts, inserted]
        simp
      refine ⟨rfl, r.insertId, account row, rfl, by rw [hrow, hr], mem, Or.inr ⟨rfl, rfl, ?_⟩⟩
      rw [hrow]
      exact eqLit_text profile.id
    | some row =>
      obtain ⟨-, same, hrows⟩ := selectUser_scalar (c := .facebook_id) rfl he
      subst same
      have found := List.mem_of_mem_head? (Option.mem_def.mpr head)
      rw [hrows] at found
      obtain ⟨mem, equal⟩ := List.mem_filter.mp found
      have equal : eqLit P.collate (row .facebook_id) (.str profile.id) = some true :=
        of_decide_eq_true equal
      have kind := (good.kinds row mem).resolve_left fun kind =>
        eqLit_ne_null equal kind.facebook_id
      obtain ⟨n, hn, hid⟩ := cellInt_user_id mem
      refine safe_send fun u hu => ?_
      cases hu
      refine ⟨cellJs_scalar _, n, account row, hn, hid, List.mem_map_of_mem mem,
        Or.inr ⟨?_, cellJs_scalar _, ?_⟩⟩
      · rw [SessionUser.ofRow, kind.email]
        rfl
      · obtain ⟨s, hs, -⟩ := (varchar_cases (c := UserCol.facebook_id) (m := 64) rfl
          w'.db.sound.user_typed mem).resolve_left fun h => eqLit_ne_null equal h.1
        simp only [account, SessionUser.ofRow, hs]
        exact eqLit_text s

theorem route_identity (known : c.Known w) (sound : Sound w) :
    (identity P).Safe c (OneRoof.route P c) w := by
  cases ordinary : c.req.route.identifies with
  | false => exact handler_identity known sound ordinary
  | true =>
    cases route : c.req.route with
    | login => rw [OneRoof.route, route]; exact login_identity known
    | signup => rw [OneRoof.route, route]; exact signup_identity known route
    | updatePass => rw [OneRoof.route, route]; exact updatePass_identity known route
    | facebookCallback grant =>
      rw [OneRoof.route, route]
      exact facebookCallback_identity known route
    | _ => simp [route, Route.identifies] at ordinary

end Handlers

/-- A step of the server itself that takes in only plain requests. -/
structure PlainLabel (P : Platform) (l : Label P) : Prop where
  own : Label.own P l
  plain : ∀ q, l = .arrive q → q.Plain

theorem PlainLabel.arrive {q : Request} (plain : q.Plain) : PlainLabel P (.arrive q) :=
  ⟨trivial, fun _ h => Async.Label.arrive.inj h ▸ plain⟩

theorem PlainLabel.settle (i : Nat) (lost : Bool) : PlainLabel P (.settle i lost) :=
  ⟨trivial, fun _ h => nomatch h⟩

theorem plain_admits {l : Label P} (plain : PlainLabel P l) : (identity P).Admits l := by
  cases l with
  | settle i lost => trivial
  | disturb db => exact absurd plain.own id
  | arrive q =>
    intro w sound
    have sound' : Sound w.next := ⟨sound.1, sound.2, sound.3, sound.4, sound.5⟩
    have known : (w.context q).Known w.next :=
      ⟨plain.plain q rfl, fun u hu => sound.sessions q.sid u hu⟩
    exact ⟨sound', List.prefix_rfl, (route_identity known sound').recover sound'
      fun w' later _ => (known.later later).send _⟩

theorem startUp_sound : Sound (startUp P).world :=
  { kinds := fun _ h => absurd h List.not_mem_nil
    sessions := fun _ _ h => by cases h
    hashes := fun _ _ h => absurd h List.not_mem_nil
    comments := fun _ h => absurd h List.not_mem_nil
    links := fun _ h => absurd h List.not_mem_nil }

theorem plain_holds {ls : List (Label P)} (plain : ∀ l ∈ ls, PlainLabel P l) :
    (identity P).Holds (run (server P) ls (startUp P)) :=
  (Discipline.run_holds ls (fun l hl => plain_admits (plain l hl)) _
    (Discipline.idle_holds startUp_sound)).1

/-- Every stored session names a row that its email or, without an email, its Facebook
id finds. -/
def SessionsNamed (w : World P) : Prop :=
  ∀ sid u, w.store sid = some u → ∃ n, ∃ r ∈ w.db.tables.user, ∃ rows : List (Row UserCol),
    u.user_id = some n ∧ r .user_id = .int n ∧ r ∈ rows ∧
    (exec P.collate (.getUser u.email) w.db = some (rows, w.db) ∨
      (u.email matches .undefined | .null) ∧
        exec P.collate (.getUserFB u.facebook_id) w.db = some (rows, w.db))

/-- Comments and task links carry the user of the session whose request inserted them. -/
def RowsAttributed (w : World P) : Prop :=
  (∀ r ∈ w.db.tables.comment, CommentOf w.log r) ∧ ∀ r ∈ w.db.tables.userTask, LinkOf w.log r

theorem Sound.sessionsNamed {w : World P} (sound : Sound w) : SessionsNamed w := by
  intro sid u hu
  obtain ⟨scalar, n, a, hn, ha, mem, kind⟩ := sound.sessions sid u hu
  obtain ⟨r, hr, rfl⟩ := List.mem_map.mp mem
  rcases kind with first | ⟨missing, scalar', equal⟩
  · have equal := (firstWith_email first).2
    refine ⟨n, r, hr, _, hn, ha, ?_, Or.inl (selectUser_given scalar (lit_ne_null equal) _ _)⟩
    exact List.mem_filter.mpr ⟨hr, decide_eq_true equal⟩
  · refine ⟨n, r, hr, _, hn, ha, ?_, Or.inr ⟨?_, selectUser_given scalar' (lit_ne_null equal) _ _⟩⟩
    · exact List.mem_filter.mpr ⟨hr, decide_eq_true equal⟩
    · cases hu : u.email <;> simp_all [JsVal.lit, JsVal.quoted, JsVal.isScalar]

/-- However plain requests interleave, sessions name their accounts and rows carry the
user whose session inserted them. -/
theorem sessions_named_rows_attributed (P : Platform) (ls : List (Label P))
    (plain : ∀ l ∈ ls, PlainLabel P l) :
    SessionsNamed (run (server P) ls (startUp P)).world ∧
      RowsAttributed (run (server P) ls (startUp P)).world :=
  have sound := (plain_holds plain).1
  ⟨sound.sessionsNamed, sound.comments, sound.links⟩

/-- A check that is enough for a request to be plain. -/
def Request.plainly (q : Request) : Bool :=
  match q.body, q.query with
  | .obj fields, .obj [] => fields.all fun f => f.1 ∈ listFields || f.2.isScalar
  | _, _ => false

theorem Request.plain_of_plainly {q : Request} (h : q.plainly = true) : q.Plain := by
  unfold Request.plainly at h
  split at h
  · rename_i fields body query
    refine ⟨fun key single => ?_, fun key => by rw [query]; rfl⟩
    rw [body]
    rcases JsVal.get_of_all h key with missing | scalar
    · rw [missing]
      rfl
    · simpa [single] using scalar
  · cases h

def Label.plainly : Label P → Bool
  | .arrive q => q.plainly
  | .settle _ _ => true
  | .disturb _ => false

theorem plain_of_plainly {ls : List (Label P)} (h : ls.all Label.plainly = true) :
    ∀ l ∈ ls, PlainLabel P l := by
  intro l hl
  have plainly := List.all_eq_true.mp h l hl
  cases l with
  | arrive q => exact .arrive (Request.plain_of_plainly plainly)
  | settle i lost => exact .settle i lost
  | disturb db => cases plainly

/-- Ann signs up, links a chore to herself, comments on it in somebody else's name and
logs in once more elsewhere. -/
def annsDay : List (Label samplePlatform) :=
  [.arrive { sid := 0, route := .signup, body := .obj [("email", .str "ann@x"),
      ("password", .str "pw"), ("confirmPass", .str "pw"), ("displayName", .str "Ann")] },
    .settle 0 false, .settle 0 false, .settle 0 false, .settle 0 false, .settle 0 false,
    .arrive { sid := 0, route := .addTask, body := .obj [("taskName", .str "dishes"),
      ("taskType", .str "Chore"), ("taskDueDate", .str "today"), ("priority", .str "low"),
      ("taskOwner", .arr [.obj [("user_id", .num 1)]])] },
    .settle 0 false, .settle 0 false, .settle 0 false,
    .arrive { sid := 0, route := .addComment, body := .obj [("commentDescr", .str "done"),
      ("creatorID", .num 7), ("taskID", .str "t")] }, .settle 0 false,
    .arrive { sid := 1, route := .login, body := .obj [("email", .str "Ann@X"),
      ("password", .str "pw")] }, .settle 0 false, .settle 0 false]

theorem annsDay_plain : ∀ l ∈ annsDay, PlainLabel samplePlatform l :=
  plain_of_plainly (by decide +kernel)

theorem sessions_named_sample :
    ((run (server samplePlatform) annsDay (startUp samplePlatform)).world.store 1).isSome ∧
    (run (server samplePlatform) annsDay (startUp samplePlatform)).world.db.tables.comment ≠ [] ∧
    (run (server samplePlatform) annsDay (startUp samplePlatform)).world.db.tables.userTask ≠ [] ∧
    SessionsNamed (run (server samplePlatform) annsDay (startUp samplePlatform)).world ∧
    RowsAttributed (run (server samplePlatform) annsDay (startUp samplePlatform)).world :=
  ⟨by decide +kernel, by decide +kernel, by decide +kernel,
    sessions_named_rows_attributed samplePlatform annsDay annsDay_plain⟩

/-- Every account is of one kind, and only real hashes are compared. -/
def KindsSplit (w : World P) : Prop :=
  (∀ r ∈ w.db.tables.user, Xor (LocalRow r) (FacebookRow r)) ∧
    ∀ c hash, .compared c hash ∈ w.log → hash ≠ .null

/-- However plain requests interleave, each row of `tblUSER` stays of its kind. -/
theorem accounts_kinds_split (P : Platform) (ls : List (Label P))
    (plain : ∀ l ∈ ls, PlainLabel P l) :
    KindsSplit (run (server P) ls (startUp P)).world := by
  have sound := (plain_holds plain).1
  refine ⟨fun r hr => ?_, sound.hashes⟩
  rcases sound.kinds r hr with kind | kind
  · exact Or.inl ⟨kind, fun kind' => kind.email kind'.email⟩
  · exact Or.inr ⟨kind, fun kind' => kind'.email kind.email⟩

def Event.isCompared : Event → Bool
  | .compared _ _ => true
  | _ => false

theorem accounts_kinds_sample :
    (run (server samplePlatform) annsDay (startUp samplePlatform)).world.db.tables.user ≠ [] ∧
    (run (server samplePlatform) annsDay (startUp samplePlatform)).world.log.any
      Event.isCompared ∧
    KindsSplit (run (server samplePlatform) annsDay (startUp samplePlatform)).world :=
  ⟨by decide +kernel, by decide +kernel,
    accounts_kinds_split samplePlatform annsDay annsDay_plain⟩

end OneRoof
