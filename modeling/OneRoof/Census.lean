import OneRoof.Answers
import OneRoof.Logins

/-!
# What the accounts say of their users

The table of the users is a census: the numbers of the accounts, in the order in which they
were made, and for each column of each account the value that was written to it last, when
the account was made or by an update since. An update is for the account of the session that
asks for it. So whatever a look-up shows of a user is what the user's own sessions have said
last, and so is what the page shows of those who live in a house.
-/

namespace OneRoof

open Sql Async Async.Prog Prog

variable {P : Platform}

/-- The accounts in the order in which they were made, and what stands in each of them. -/
@[ext]
structure Census where
  numbers : List Int
  cells : Int → Row UserCol

/-- The table that a census stands for. -/
def Census.rows (k : Census) : List (Row UserCol) := k.numbers.map k.cells

/-- What an account says when it has been made. -/
def NewUser.entered (n : Int) : NewUser → Row UserCol
  | .localUser email displayName hashPass paymentMethod paymentUsername mobile => fun
    | .user_id => .int n
    | .email => store UserCol.email email.lit.value
    | .displayName => store UserCol.displayName displayName.lit.value
    | .hash_pass => store UserCol.hash_pass hashPass.lit.value
    | .payment_method => store UserCol.payment_method paymentMethod.lit.value
    | .payment_username => store UserCol.payment_username paymentUsername.lit.value
    | .phone_num => store UserCol.phone_num mobile.lit.value
    | _ => .null
  | .facebookUser facebook_email displayName facebook_token facebook_id => fun
    | .user_id => .int n
    | .facebook_email => store UserCol.facebook_email facebook_email.lit.value
    | .displayName => store UserCol.displayName displayName.lit.value
    | .facebook_name => store UserCol.facebook_name displayName.lit.value
    | .facebook_token => store UserCol.facebook_token facebook_token.lit.value
    | .facebook_id => store UserCol.facebook_id facebook_id.lit.value
    | _ => .null

/-- An account with something else in one column. -/
def Census.set (k : Census) (n : Int) (col : UserCol) (x : Value) : Census :=
  ⟨k.numbers, Function.update k.cells n (Function.update (k.cells n) col x)⟩

/-- What a completed statement makes of the census. -/
def counting (_ : Ctx) : (s : Stmt) → s.Reply → Census → Census
  | .createUser user, packet, k =>
    ⟨k.numbers ++ [(packet.insertId : Int)],
      Function.update k.cells packet.insertId (user.entered packet.insertId)⟩
  | s, _, k => match s.setsUser with
    | some (col, v, some n) => k.set n col (store col v.lit.value)
    | _ => k

/-- Nobody has an account. -/
def noCensus : Census := ⟨[], fun _ => blank⟩

/-- The table shows the census. -/
structure ShowsCensus (db : Database P.collate) (k : Census) : Prop where
  rows : db.tables.user = k.rows
  ids : ∀ n ∈ k.numbers, k.cells n .user_id = .int n

section Statements

variable {c : Ctx} {s : Stmt} {db db' : Database P.collate} {k : Census}

/-- A sign-up and a first visit through Facebook put in scalars only. -/
theorem entered_of_insertUser {user : NewUser} {n : Nat} {row : Row UserCol} (plain : c.req.Plain)
    (sends : Sends P c (.createUser user)) (filled : insertUser P.collate user n = some row) :
    row = user.entered n := by
  cases sends with
  | select reads => cases reads
  | createLocal route given =>
    have scalars : ∀ v ∈ [credential c.req "email", c.req.body.get "displayName",
        optional c.req "paymentMethod" "paymentMethod",
        optional c.req "paymentMethod" "paymentUsername", optional c.req "mobile" "mobile"],
        v.isScalar = true := by
      simp only [List.forall_mem_cons]
      exact ⟨credential_scalar plain "email" (by decide), plain.body _ (by decide),
        optional_scalar plain _ (by decide), optional_scalar plain _ (by decide),
        optional_scalar plain _ (by decide), nofun⟩
    simp only [List.forall_mem_cons] at scalars
    have string : ∀ text, (JsVal.str text).isScalar = true := fun _ => rfl
    rw [newLocalUser, insertUser, newRow,
      valuesOf_scalars (by simp [signupUser, scalars, string])] at filled
    rw [fill_eq_assign filled]
    funext col
    cases col <;> rfl
  | createFacebook route =>
    rw [insertUser, newRow] at filled
    obtain ⟨sets, parsed, filled⟩ := Option.bind_eq_some_iff.mp filled
    cases parsed
    rw [fill_eq_assign filled]
    funext col
    cases col <;> rfl

theorem ShowsCensus.create {user : NewUser} {packet : Packet} (shown : ShowsCensus db k)
    (plain : c.req.Plain) (sends : Sends P c (.createUser user))
    (he : exec P.collate (.createUser user) db = some (packet, db')) :
    ShowsCensus db' (counting c (.createUser user) packet k) := by
  obtain ⟨row, filled, tables, number⟩ := exec_createUser he
  have entered := entered_of_insertUser plain sends filled
  rw [← number] at entered
  have id : user.entered packet.insertId .user_id = .int packet.insertId := by
    cases user <;> rfl
  -- the key of the table keeps the number apart from the old ones
  have apart : (packet.insertId : Int) ∉ k.numbers := by
    intro old
    have keyed := db'.sound.user_key
    rw [tables, shown.rows, Keyed, List.pairwise_append] at keyed
    have clash := keyed.2.2 _ (List.mem_map_of_mem old) row (List.mem_singleton_self _)
    rw [shown.ids _ old, entered, id] at clash
    exact clash (by simp [eqValue])
  have kept : ∀ n ∈ k.numbers, Function.update k.cells (packet.insertId : Int)
      (user.entered packet.insertId) n = k.cells n := by
    intro n mem
    have other : n ≠ packet.insertId := by
      rintro rfl
      exact apart mem
    exact Function.update_of_ne other _ _
  refine ⟨?_, fun n mem => ?_⟩
  · rw [tables, shown.rows, entered]
    simp only [Census.rows, counting, List.map_append, List.map_cons, List.map_nil,
      Function.update_self]
    rw [List.map_congr_left kept]
  · rcases List.mem_append.mp mem with old | new
    · exact (congrFun (kept n old) _).trans (shown.ids n old)
    · rw [List.mem_singleton.mp new]
      exact (congrFun (Function.update_self _ _ _) _).trans id

theorem ShowsCensus.set {col : UserCol} {v : JsVal} {id : Option Int} {r : s.Reply}
    (shown : ShowsCensus db k) (writes : s.setsUser = some (col, v, id))
    (tables : db'.tables.user = db.tables.user.map (written P.collate col v.lit.value id)) :
    ShowsCensus db' (counting c s r k) := by
  have other : UserCol.user_id ≠ col := by
    rintro rfl
    exact Stmt.setsUser_id writes
  cases id with
  | none =>
    have counted : counting c s r k = k := by cases s <;> cases writes <;> rfl
    rw [counted]
    have same : ∀ row, written P.collate col v.lit.value none row = row := by
      intro row
      simp [written, idLit, eqLit_null]
    refine ⟨?_, shown.ids⟩
    rw [tables, shown.rows, List.map_congr_left fun row _ => same row, List.map_id']
  | some n =>
    have counted : counting c s r k = k.set n col (store col v.lit.value) := by
      cases s <;> cases writes <;> rfl
    rw [counted]
    refine ⟨?_, fun m mem => ?_⟩
    · rw [tables, shown.rows, Census.rows, Census.rows, Census.set, List.map_map]
      refine List.map_congr_left fun m mem => ?_
      rw [Function.comp_apply, written, shown.ids m mem]
      by_cases same : m = n
      · simp [same, idLit, eqLit]
      · simp [same, idLit, eqLit]
    · by_cases same : m = n
      · subst same
        simp only [Census.set, Function.update_self]
        rw [Function.update_of_ne other]
        exact shown.ids m mem
      · simp only [Census.set, Function.update_of_ne same]
        exact shown.ids m mem

/-- Statements about other tables leave this one. -/
theorem user_same {r : s.Reply} (he : exec P.collate s db = some (r, db'))
    (known : ∀ user, s ≠ .createUser user) (kept : s.setsUser = none) :
    db'.tables.user = db.tables.user := by
  have effect := exec_effect he
  generalize db'.tables = t at effect ⊢
  generalize db'.next = n at effect
  cases effect with
  | setUser writes parsed =>
    rw [kept] at writes
    cases writes
  | createUser filled => exact absurd rfl (known _)
  | _ => rfl

theorem counting_other {r : s.Reply} (known : ∀ user, s ≠ .createUser user)
    (kept : s.setsUser = none) : counting c s r k = k := by
  cases s with
  | createUser user => exact absurd rfl (known user)
  | _ => first | rfl | cases kept

theorem census_refines :
    Refines P Request.Plain (KeepsAccounts P) counting noCensus ShowsCensus where
  start := ⟨rfl, fun _ mem => absurd mem List.not_mem_nil⟩
  issues := handler_enrols
  preserve := by
    intro c s r db db' k enrols he shown
    cases writes : s.setsUser with
    | some w =>
      obtain ⟨col, v, id⟩ := w
      obtain ⟨scalar, -⟩ := enrols.sends.updates enrols.plain writes
      obtain ⟨r', db'', he', -, tables⟩ := exec_setsUser_scalar writes scalar db
      rw [he] at he'
      cases he'
      exact shown.set writes (by rw [tables])
    | none =>
      by_cases creates : ∃ user, s = .createUser user
      · obtain ⟨user, rfl⟩ := creates
        exact shown.create enrols.plain enrols.sends he
      · have known : ∀ user, s ≠ .createUser user := fun user same => creates ⟨user, same⟩
        rw [counting_other known writes]
        exact ⟨(user_same he known writes).trans shown.rows, shown.ids⟩

end Statements

/-- The account that a completed statement has made. -/
def Event.account : Event → Option Int
  | .completed _ (.createUser _) packet => some (Packet.insertId packet)
  | _ => none

/-- What an event has put into a column of an account. -/
def Event.put (n : Int) (col : UserCol) : Event → Option Value
  | .completed _ (.createUser user) packet =>
    if (Packet.insertId packet : Int) = n then some (user.entered n col) else none
  | .completed _ s _ => match s.setsUser with
    | some (col', v, some m) =>
      if m = n ∧ col' = col then some (store col v.lit.value) else none
    | _ => none
  | _ => none

/-- The accounts that were made, each with what was put into it last. -/
def census (log : List Event) : Census where
  numbers := log.filterMap Event.account
  cells n col := (log.filterMap (Event.put n col)).getLast?.getD (blank col)

section Last

variable {log : List Event} {c : Ctx} {s : Stmt}

theorem census_snoc (log : List Event) (e : Event) (n : Int) (col : UserCol) :
    (census (log ++ [e])).cells n col = (e.put n col).getD ((census log).cells n col) := by
  simp only [census, List.filterMap_append]
  cases put : e.put n col with
  | none => rw [List.filterMap_cons_none put, List.filterMap_nil, List.append_nil]; rfl
  | some v => rw [List.filterMap_cons_some put, List.filterMap_nil, List.getLast?_concat]; rfl

theorem census_made (log : List Event) (e : Event) :
    (census (log ++ [e])).numbers = (census log).numbers ++ e.account.toList := by
  simp only [census, List.filterMap_append]
  cases made : e.account with
  | none => rw [List.filterMap_cons_none made]; rfl
  | some n => rw [List.filterMap_cons_some made]; rfl

/-- A completed statement does to the last values what it does to the census. -/
theorem census_completed (log : List Event) (c : Ctx) (s : Stmt) (r : s.Reply) :
    census (log ++ [.completed c s r]) = counting c s r (census log) := by
  by_cases creates : ∃ user, s = .createUser user
  · obtain ⟨user, rfl⟩ := creates
    refine Census.ext (census_made log _) (funext₂ fun n col => ?_)
    rw [census_snoc]
    by_cases own : (Packet.insertId r : Int) = n
    · subst own
      simp [Event.put, counting]
    · simp [Event.put, counting, own, Function.update_of_ne (Ne.symm own)]
  have known : ∀ user, s ≠ .createUser user := fun user same => creates ⟨user, same⟩
  have none : (Event.completed c s r).account = none := by
    cases s with
    | createUser user => exact absurd rfl (known user)
    | _ => rfl
  have put : ∀ n col, (Event.completed c s r).put n col = match s.setsUser with
      | some (col', v, some m) =>
        if m = n ∧ col' = col then some (store col v.lit.value) else Option.none
      | _ => Option.none := by
    intro n col
    cases s with
    | createUser user => exact absurd rfl (known user)
    | _ => rfl
  cases writes : s.setsUser with
  | none =>
    rw [counting_other known writes]
    refine Census.ext ?_ (funext₂ fun n col => ?_)
    · rw [census_made, none, Option.toList_none, List.append_nil]
    · rw [census_snoc, put, writes]
      rfl
  | some w =>
    obtain ⟨col', v, id⟩ := w
    cases id with
    | none =>
      have counted : counting c s r (census log) = census log := by
        cases s <;> cases writes <;> rfl
      rw [counted]
      refine Census.ext ?_ (funext₂ fun n col => ?_)
      · rw [census_made, none, Option.toList_none, List.append_nil]
      · rw [census_snoc, put, writes]
        rfl
    | some m =>
      have counted : counting c s r (census log) =
          (census log).set m col' (store col' v.lit.value) := by
        cases s <;> cases writes <;> rfl
      rw [counted]
      refine Census.ext ?_ (funext₂ fun n col => ?_)
      · rw [census_made, none, Option.toList_none, List.append_nil]
        rfl
      · rw [census_snoc, put, writes]
        by_cases own : m = n
        · subst own
          by_cases here : col' = col
          · subst here
            simp [Census.set]
          · simp [Census.set, here, Function.update_of_ne (Ne.symm here)]
        · simp [Census.set, own, Function.update_of_ne (Ne.symm own)]

/-- The statements of a log make the census of its last values. -/
theorem census_eq (log : List Event) : replay counting noCensus log = census log := by
  induction log using List.reverseRecOn with
  | nil => rfl
  | append_singleton log e ih =>
    rw [replay_append, ih]
    have quiet : (∀ c s r, e ≠ .completed c s r) → census (log ++ [e]) = census log := by
      intro other
      have none : e.account = none ∧ ∀ n col, e.put n col = none := by
        cases e with
        | completed c s r => exact absurd rfl (other c s r)
        | _ => exact ⟨rfl, fun _ _ => rfl⟩
      refine Census.ext ?_ (funext₂ fun n col => ?_)
      · rw [census_made, none.1, Option.toList_none, List.append_nil]
      · rw [census_snoc, none.2]
        rfl
    cases e with
    | completed c s r => exact (census_completed log c s r).symm
    | _ => exact (quiet (by simp)).symm

end Last

section Readings

variable {db db' : Database P.collate} {k : Census} {register : List Residence}

/-- Those who live in a house, as the census has them. -/
def Census.members (k : Census) (register : List Residence) (h : Int) : List (Row UserCol) :=
  (k.numbers.filter fun n => register.any fun e => e.house = h ∧ e.user = n).map k.cells

/-- The accounts with something in a column, in the order in which they were made. -/
def Census.found (collate : String → String) (k : Census) (col : UserCol) (v : JsVal) :
    List (Row UserCol) :=
  k.rows.filter fun row => eqLit collate (row col) v.lit = some true

/-- What a look-up of users has to answer while the registers are these. A list of members
comes in no particular order. -/
def ReadsCensus (collate : String → String) (register : List Residence) (k : Census) :
    (s : Stmt) → s.Reply → Prop
  | .getUser email, rows => email.isScalar = true → rows = k.found collate .email email
  | .getUserFB id, rows => id.isScalar = true → rows = k.found collate .facebook_id id
  | .getUsersInHouse (some h), rows => rows.Perm (k.members register h)
  | _, _ => True

/-- No number is given to two accounts. -/
theorem ShowsCensus.once (shown : ShowsCensus db k) : k.numbers.Nodup := by
  have keyed := db.sound.user_key
  rw [shown.rows, Keyed, Census.rows, List.pairwise_map] at keyed
  refine keyed.imp_of_mem fun {n m} hn hm apart same => apart ?_
  rw [shown.ids n hn, shown.ids m hm, same]
  simp [eqValue]

theorem mem_members (shown : ShowsCensus db k) {h : Int} {u : Row UserCol} :
    u ∈ k.members register h ↔
      u ∈ k.rows ∧ ∃ e ∈ register, e.house = h ∧ u .user_id = .int e.user := by
  simp only [Census.members, Census.rows, List.mem_map, List.mem_filter, List.any_eq_true,
    decide_eq_true_eq]
  constructor
  · rintro ⟨n, ⟨known, e, lives, house, own⟩, rfl⟩
    exact ⟨⟨n, known, rfl⟩, e, lives, house, (shown.ids n known).trans (own ▸ rfl)⟩
  · rintro ⟨⟨n, known, rfl⟩, e, lives, house, own⟩
    rw [shown.ids n known] at own
    cases own
    exact ⟨e.user, ⟨known, e, lives, house, rfl⟩, rfl⟩

theorem members_read (housed : ShowsHousing db register) (shown : ShowsCensus db k) (h : Int) :
    (usersInHouse P.collate h db.tables).Perm (k.members register h) := by
  obtain ⟨once, exact⟩ := usersInHouse_lists db h
  have members : (k.members register h).Nodup := by
    refine (shown.once.filter _).map_on ?_
    intro n hn m hm same
    have cell := congrFun same .user_id
    rw [shown.ids n (List.mem_filter.mp hn).1, shown.ids m (List.mem_filter.mp hm).1] at cell
    cases cell
    rfl
  refine (List.perm_ext_iff_of_nodup once.of_map members).mpr fun u => ?_
  rw [exact, mem_members shown, LivesIn, housed, shown.rows]
  refine and_congr_right fun _ => ?_
  simp [Residence.row, eq_comm]

/-- The tables show the residences and the census of each log. -/
theorem household_refines : Refines P Request.Plain (KeepsAccounts P)
    (fun c s r a => (housing c s r a.1, counting c s r a.2)) ([], noCensus)
    (fun db a => ShowsHousing db a.1 ∧ ShowsCensus db a.2) :=
  (housing_refines.narrow handler_enrols fun _ _ _ => trivial).both census_refines

theorem census_answered {ls : List (Label P)} (plain : ∀ l ∈ ls, PlainLabel P l)
    {front rest : List Event} {c : Ctx} {s : Stmt} {r : s.Reply}
    (logged : (run (server P) ls (startUp P)).world.log = front ++ .completed c s r :: rest) :
    ReadsCensus P.collate (residences front) (census front) s r := by
  obtain ⟨-, db, db', shown, he⟩ :=
    household_refines.answered (fun l mem => (plain l mem).admissible) logged
  rw [replay_both, census_eq] at shown
  have found : ∀ {col : UserCol} {v : JsVal} {rows : List (Row UserCol)}, v.isScalar = true →
      selectUser P.collate col v db = some (rows, db') →
      rows = (census front).found P.collate col v := by
    intro col v rows scalar he
    obtain ⟨-, -, read⟩ := selectUser_scalar scalar he
    rw [read, shown.2.rows]
    rfl
  cases s with
  | getUser email => exact fun scalar => found scalar he
  | getUserFB id => exact fun scalar => found scalar he
  | getUsersInHouse houseID =>
    cases houseID with
    | none => trivial
    | some h =>
      cases he
      exact members_read shown.1 shown.2 h
  | _ => trivial

/-- What is put into an account that has been made is put there by a session of its user. -/
theorem put_own {ls : List (Label P)} (plain : ∀ l ∈ ls, PlainLabel P l) {e : Event}
    (logged : e ∈ (run (server P) ls (startUp P)).world.log) {n : Int} {col : UserCol} {v : Value}
    (put : e.put n col = some v) : e.account = some n ∨ e.ofUser n = true := by
  cases e with
  | completed c s r =>
    obtain ⟨front, rest, split⟩ := List.append_of_mem logged
    obtain ⟨enrols, -⟩ :=
      census_refines.answered (fun l mem => (plain l mem).admissible) split
    by_cases creates : ∃ user, s = .createUser user
    · obtain ⟨user, rfl⟩ := creates
      left
      simp only [Event.put] at put
      split at put
      · rename_i own
        rw [← own]
        rfl
      · cases put
    · have asked : ∃ w, s.setsUser = some (col, w, some n) := by
        have sets : (match s.setsUser with
            | some (col', v, some m) =>
              if m = n ∧ col' = col then some (store col v.lit.value) else none
            | _ => none) = some v := by
          cases s with
          | createUser user => exact absurd ⟨user, rfl⟩ creates
          | _ => exact put
        split at sets
        · rename_i col' w m writes
          split at sets
          · rename_i own
            rw [own.1, own.2] at writes
            exact ⟨w, writes⟩
          · cases sets
        · cases sets
      obtain ⟨w, writes⟩ := asked
      obtain ⟨-, -, ⟨u, user, id⟩, -⟩ := enrols.sends.updates enrols.plain writes
      right
      simp [Event.ofUser, Event.ctx, user, id]
  | _ => cases put

/-- A page with the members of a house, as the registers were when they were looked up. -/
theorem members_listed {ls : List (Label P)} (plain : ∀ l ∈ ls, PlainLabel P l) {c : Ctx}
    {v : JsVal} {user : Option SessionUser}
    (answered : .answered c (.json v) user ∈ (run (server P) ls (startUp P)).world.log)
    (route : c.req.route = .getUsers) :
    ∃ u h front rows, c.user = some u ∧ u.houseID = some h ∧
      front <+: (run (server P) ls (startUp P)).world.log ∧
      rows.Perm ((census front).members (residences front) h) ∧ v = .arr [u.js, rowsJs rows] := by
  have made := (run_pagesMade fun l mem => (plain l mem).own).sent c v user answered
  simp only [MadeOf, route] at made
  obtain ⟨u, h, rows, user, house, found, rfl⟩ := made
  obtain ⟨front, rest, logged⟩ := List.append_of_mem found
  exact ⟨u, h, front, rows, user, house, ⟨_, logged.symm⟩, census_answered plain logged, rfl⟩

theorem annLooks_plain : ∀ l ∈ annLooks, PlainLabel samplePlatform l :=
  plain_of_plainly (by decide +kernel)

end Readings

end OneRoof
