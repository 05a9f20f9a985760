import OneRoof.Leaving

/-!
# Whose house a session shows

The house a user is in is remembered in each of the user's sessions, and the pages
of a house are read by what the session remembers. `house` refreshes it from the
table but never takes it away, and `leaveHouse` takes it away in one session only.
A session shows the right house as long as nobody leaves a house that another
session or request of the same user still remembers.
-/

namespace OneRoof

open Sql Async Async.Prog Prog

variable {P : Platform}

/-- The routes about the house a user is in. -/
def Route.housing : Route → Bool
  | .createHouse | .joinHouse | .leaveHouse | .house | .getUsers | .getGroups
  | .houseDetails => true
  | _ => false

/-- A row puts the user into the house. -/
def Member (collate : String → String) (t : Tables) (house : Int) (id : Option Int) : Prop :=
  ∃ r ∈ t.houseUser, leaves collate (some house) id r = true

/-- The house a session remembers is one its user is in. -/
def Current (collate : String → String) (t : Tables) (u : SessionUser) : Prop :=
  ∀ house, u.houseID = some house → Member collate t house u.user_id

/-- The house whose data a statement reads. -/
def Stmt.readsHouse : Stmt → Option Int
  | .getUsersInHouse houseID => houseID
  | .getHouseGroups houseID => houseID
  | .getHouseWithID houseID => houseID
  | _ => none

/-- The session users a callback may save: its own, or one that is current. -/
def Act.Saves (collate : String → String) (c : Ctx) (t : Tables) : Act → Prop
  | .send _ user => ∀ u, user = some u → c.user = some u ∨ Current collate t u
  | _ => False

/-- A statement in flight reads the house of its own session, and its callback is the
last one. -/
structure Waiting (P : Platform) (c : Ctx) (s : Stmt) (k : Option s.Reply → Prog) : Prop where
  reads : ∀ house, s.readsHouse = some house → ∃ u, c.user = some u ∧ u.houseID = some house
  fails : ∀ t, (k none).Last (fun s => s.readsHouse = none) (Act.Saves P.collate c t)
  completes : ∀ (db : Database P.collate) r db', exec P.collate s db = some (r, db') →
    (k (some r)).Last (fun s => s.readsHouse = none) (Act.Saves P.collate c db'.tables)

section Handlers

variable {c : Ctx} {t : Tables} {φ : Stmt → Prop}

theorem send_last {answer : Answer} {user : Option SessionUser}
    (saves : ∀ u, user = some u → c.user = some u ∨ Current P.collate t u) :
    (Prog.send answer user).Last φ (Act.Saves P.collate c t) :=
  ⟨saves, fun b => by cases b <;> trivial⟩

theorem sendUser_last (answer : Answer) :
    (Prog.send answer c.user).Last φ (Act.Saves P.collate c t) :=
  send_last fun _ => Or.inl

theorem homeless_current (u : SessionUser) : Current P.collate t u.homeless := fun _ h => nomatch h

/-- The first row that `getHouse` finds is of the user's house. -/
theorem house_current {u : SessionUser} {row : Row HouseUserCol}
    (mem : row ∈ select P.collate (.eq .user_id (idLit u.user_id)) t.houseUser) :
    Current P.collate t { u with houseID := cellInt (row .house_id) } := by
  intro house hh
  obtain ⟨hr, own⟩ := List.mem_filter.mp mem
  have own := (Cond.hits_iff P.collate).mp own
  refine ⟨row, hr, decide_eq_true ⟨?_, own⟩⟩
  cases hv : row .house_id with
  | int n =>
    have same : n = house := by simpa [hv, cellInt] using hh
    simp [eqLit, idLit, same]
  | null => simp [hv, cellInt] at hh
  | text s => simp [hv, cellInt] at hh

/-- A handler about houses waits for one statement, or is done at once. -/
theorem handler_waiting (route : c.req.route.housing = true) :
    (∃ s k, handler P c = .issue s k .done ∧ Waiting P c s k) ∨
      ∀ t, (handler P c).Last (fun s => s.readsHouse = none) (Act.Saves P.collate c t) := by
  have nobody : ∀ t, (Prog.send (.status 500 "Internal Server Error") none).Last
      (fun s => s.readsHouse = none) (Act.Saves P.collate c t) := fun t => send_last nofun
  unfold handler OneRoof.route
  cases hr : c.req.route with
  | createHouse =>
    refine Or.inl ⟨_, _, rfl, nofun, fun t => sendUser_last _, fun _ _ _ _ => ?_⟩
    refine Last.recover ?_ (sendUser_last _)
    cases hu : c.user with
    | none => trivial
    | some u => exact ⟨rfl, fun _ => rfl, hu ▸ sendUser_last _⟩
  | joinHouse =>
    refine Or.inl ⟨_, _, rfl, nofun, fun t => trivial, fun _ _ _ _ => ?_⟩
    refine Last.recover ?_ trivial
    dsimp only
    split
    · cases hu : c.user with
      | none => trivial
      | some u => exact ⟨rfl, fun _ => rfl, trivial⟩
    · exact sendUser_last _
  | leaveHouse =>
    cases hu : c.user with
    | none => exact Or.inr nobody
    | some u =>
      exact Or.inl ⟨_, _, rfl, nofun, fun t => trivial, fun _ _ _ _ =>
        send_last fun _ h => Or.inr (by cases h; exact homeless_current u)⟩
  | house =>
    cases hu : c.user with
    | none => exact Or.inr nobody
    | some u =>
      refine Or.inl ⟨_, _, rfl, nofun, fun t => trivial, fun db rows db' he => ?_⟩
      cases he
      dsimp only [thenRun]
      split
      · exact hu ▸ sendUser_last _
      · rename_i row head
        refine send_last fun _ h => Or.inr ?_
        cases h
        exact house_current (List.mem_of_mem_head? (Option.mem_def.mpr head))
  | houseDetails =>
    cases hu : c.user with
    | none => exact Or.inr nobody
    | some u =>
      exact Or.inl ⟨_, _, rfl, fun house h => ⟨u, hu, h⟩, fun t => trivial, fun _ _ _ _ =>
        hu ▸ sendUser_last _⟩
  | getGroups =>
    cases hu : c.user with
    | none => exact Or.inr nobody
    | some u =>
      exact Or.inl ⟨_, _, rfl, fun house h => ⟨u, hu, h⟩, fun t => trivial, fun _ _ _ _ =>
        hu ▸ sendUser_last _⟩
  | getUsers =>
    cases hu : c.user with
    | none => exact Or.inr nobody
    | some u =>
      cases hh : u.houseID with
      | none =>
        simp only [getUsers, withUser, attempt, hh]
        exact Or.inr fun t => trivial
      | some house =>
        simp only [getUsers, withUser, attempt, hh]
        exact Or.inl ⟨_, _, rfl, fun house' h => ⟨u, hu, by rw [hh]; exact h⟩, fun t => trivial,
          fun _ _ _ _ => hu ▸ sendUser_last _⟩
  | _ => simp [hr, Route.housing] at route

end Handlers

section Tables

variable {collate : String → String} {db db' : Database collate}

/-- Only `removeUserHouse` takes rows of `tblHOUSE_USER` away. -/
theorem exec_members {s : Stmt} {r : s.Reply} (he : exec collate s db = some (r, db'))
    (stays : ∀ houseID user_id, s ≠ .removeUserHouse houseID user_id) :
    db.tables.houseUser ⊆ db'.tables.houseUser := by
  have effect := exec_effect he
  generalize db'.tables = t at effect ⊢
  generalize db'.next = n at effect
  cases effect with
  | addUserToHouse => exact List.subset_append_left _ _
  | removeUserHouse => exact absurd rfl (stays _ _)
  | _ => exact fun _ h => h

theorem Member.mono {t t' : Tables} {house : Int} {id : Option Int}
    (sub : t.houseUser ⊆ t'.houseUser) (member : Member collate t house id) :
    Member collate t' house id := by
  obtain ⟨r, hr, own⟩ := member
  exact ⟨r, sub hr, own⟩

theorem Current.mono {t t' : Tables} {u : SessionUser} (sub : t.houseUser ⊆ t'.houseUser)
    (current : Current collate t u) : Current collate t' u :=
  fun house hh => (current house hh).mono sub

/-- A row is of one house and of one user. -/
theorem leaves_same {r : Row HouseUserCol} (hr : r ∈ db.tables.houseUser) {house house' : Int}
    {id id' : Option Int} (own : leaves collate (some house) id r = true)
    (own' : leaves collate (some house') id' r = true) : house = house' ∧ id = id' := by
  obtain ⟨h, hh⟩ := int_cell (c := HouseUserCol.house_id) rfl rfl db.sound.houseUser_typed hr
  obtain ⟨k, hk⟩ := int_cell (c := HouseUserCol.user_id) rfl rfl db.sound.houseUser_typed hr
  obtain ⟨houses, users⟩ := of_decide_eq_true own
  obtain ⟨houses', users'⟩ := of_decide_eq_true own'
  rw [hh] at houses houses'
  rw [hk] at users users'
  refine ⟨?_, ?_⟩
  · have one : h = house := by simpa [idLit, eqLit] using houses
    have two : h = house' := by simpa [idLit, eqLit] using houses'
    exact one.symm.trans two
  · cases id with
    | none => simp [idLit, eqLit] at users
    | some n =>
      cases id' with
      | none => simp [idLit, eqLit] at users'
      | some n' =>
        have one : k = n := by simpa [idLit, eqLit] using users
        have two : k = n' := by simpa [idLit, eqLit] using users'
        rw [← one, ← two]

/-- Who leaves a house changes nothing for those who remember another house, or are others. -/
theorem Current.leaves {u v : SessionUser} (current : Current collate db.tables v)
    (ht : db'.tables.houseUser = db.tables.houseUser.filter
      (fun r => !OneRoof.leaves collate u.houseID u.user_id r))
    (other : v.user_id = u.user_id → ∀ house, u.houseID = some house → v.houseID ≠ some house) :
    Current collate db'.tables v := by
  intro house hh
  obtain ⟨r, hr, own⟩ := current house hh
  refine ⟨r, ?_, own⟩
  rw [ht]
  refine List.mem_filter.mpr ⟨hr, ?_⟩
  cases hu : u.houseID with
  | none => simp [OneRoof.leaves, idLit, eqLit_null]
  | some house' =>
    rw [Bool.not_eq_true', Bool.eq_false_iff]
    intro gone
    obtain ⟨same, users⟩ := leaves_same hr own gone
    exact other users house' hu (same ▸ hh)

end Tables

/-- The reply to a statement has data in it. -/
def Stmt.shows : (s : Stmt) → s.Reply → Bool
  | .getUsersInHouse _, rows => !rows.isEmpty
  | .getHouseGroups _, rows => !rows.isEmpty
  | .getHouseWithID _, rows => !rows.isEmpty
  | _, _ => false

/-- The requests are about houses, and whoever leaves a house has no other session and no
other request in flight that remembers it. -/
def LeavesAlone (σ : Config P) : Label P → Prop
  | .arrive q => q.route.housing = true
  | .settle i _ => ∀ p ∈ σ.pending[i]?, p.ctx.req.route = .leaveHouse →
      ∀ u, p.ctx.user = some u → ∀ v, v.user_id = u.user_id →
        (∃ sid, sid ≠ p.ctx.req.sid ∧ σ.world.store sid = some v) ∨
          (∃ p' ∈ σ.pending.eraseIdx i, p'.ctx.user = some v) →
        ∀ house, u.houseID = some house → v.houseID ≠ some house
  | .disturb _ => False

/-- A read that finds data of a house is of a user who is in the house. -/
def ReadsOwnHouse (σ : Config P) (l : Label P) : Prop :=
  ∀ i p r db, l = .settle i false → σ.pending[i]? = some p →
    exec P.collate p.stmt σ.world.db = some (r, db) → p.stmt.shows r = true →
    ∀ house, p.stmt.readsHouse = some house →
      ∃ u, p.ctx.user = some u ∧ Member P.collate σ.world.db.tables house u.user_id

/-- What every session remembers is current. -/
def Remembered (t : Tables) (w : World P) : Prop :=
  ∀ sid u, w.store sid = some u → Current P.collate t u

theorem Remembered.perform {t : Tables} {c : Ctx}
    (own : ∀ u, c.user = some u → Current P.collate t u) (a : Act) (w : World P)
    (saves : a.Saves P.collate c t) (kept : Remembered t w) :
    Remembered t ((server P).perform c a w).2 := by
  cases a with
  | send answer user =>
    intro sid u hu
    simp only [server, World.perform, World.answer] at hu
    split at hu
    · exact kept sid u hu
    simp only [Function.update_apply] at hu
    split at hu
    · exact (saves u hu).elim (own u) id
    · exact kept sid u hu
  | compareSync hash => exact absurd saves id
  | push entry total => exact absurd saves id
  | sendGathered user => exact absurd saves id

/-- What every session and every request in flight remembers is current. -/
structure Lodged (σ : Config P) : Prop where
  sessions : Remembered σ.world.db.tables σ.world
  requests : ∀ p ∈ σ.pending, ∀ u, p.ctx.user = some u → Current P.collate σ.world.db.tables u
  waiting : ∀ p ∈ σ.pending, Waiting P p.ctx p.stmt p.k

theorem enter_lodged {c : Ctx} {prog : Prog} (σ : Config P) (lodged : Lodged σ)
    (own : ∀ u, c.user = some u → Current P.collate σ.world.db.tables u)
    (last : prog.Last (fun s => s.readsHouse = none)
      (Act.Saves P.collate c σ.world.db.tables)) :
    Lodged (enter (server P) c prog σ) := by
  obtain ⟨sessions, new, pending, each⟩ :=
    enter_last (Remembered.perform own) last σ lodged.sessions
  constructor
  · rw [enter_db]
    exact sessions
  · rw [enter_db, pending]
    intro p hp u hu
    rcases List.mem_append.mp hp with old | isNew
    · exact lodged.requests p old u hu
    · exact own u ((each p isNew).1 ▸ hu)
  · rw [pending]
    intro p hp
    rcases List.mem_append.mp hp with old | isNew
    · exact lodged.waiting p old
    · obtain ⟨-, reads, loose⟩ := each p isNew
      refine ⟨fun house h => ?_, fun t => ?_, fun _ r _ _ => ?_⟩
      · rw [reads] at h
        cases h
      · rw [loose none]
        trivial
      · rw [loose (some r)]
        trivial

/-- A `leaveHouse` in flight is the one that sends `removeUserHouse`. -/
theorem Sends.leaveHouse {c : Ctx} {houseID user_id : Option Int}
    (sends : Sends P c (.removeUserHouse houseID user_id)) : c.req.route = .leaveHouse := by
  cases sends with
  | select reads => cases reads
  | removeUserHouse route => exact route

/-- The invariant of the runs in which everybody leaves alone. -/
structure Housed (σ : Config P) : Prop where
  orderly : Orderly σ
  sent : Sent (fun _ => True) σ
  lodged : Lodged σ

theorem arrive_lodged {q : Request} {σ : Config P} (route : q.route.housing = true)
    (lodged : Lodged σ) : Lodged (step (server P) (.arrive q) σ) := by
  rw [arrive_eq]
  have start : Lodged (⟨σ.world.next, σ.pending⟩ : Config P) :=
    ⟨lodged.sessions, lodged.requests, lodged.waiting⟩
  have own : ∀ u, (σ.world.context q).user = some u → Current P.collate σ.world.db.tables u :=
    fun u hu => lodged.sessions q.sid u hu
  rcases handler_waiting (P := P) (c := σ.world.context q) route with ⟨s, k, waits, waiting⟩ | last
  · rw [waits]
    refine ⟨lodged.sessions, fun p hp u hu => ?_, fun p hp => ?_⟩
    · rcases List.mem_append.mp hp with old | isNew
      · exact lodged.requests p old u hu
      · rw [List.mem_singleton.mp isNew] at hu
        exact own u hu
    · rcases List.mem_append.mp hp with old | isNew
      · exact lodged.waiting p old
      · rw [List.mem_singleton.mp isNew]
        exact waiting
  · exact enter_lodged _ start own (last _)

/-- The one who leaves forgets the house, and nobody else remembered it. -/
theorem leave_lodged {i : Nat} {σ : Config P} (housed : Housed σ)
    {p : Pending Stmt Stmt.Reply Act Ctx} (hp : σ.pending[i]? = some p)
    (route : p.ctx.req.route = .leaveHouse) (alone : LeavesAlone σ (.settle i false)) :
    Lodged (settle (server P) i false σ) := by
  have lodged := housed.lodged
  obtain ⟨⟨u, user, shape⟩, -⟩ := housed.orderly.leaves p (List.mem_of_getElem? hp) route
  have others := alone p hp route u user
  generalize p.ctx = c at shape route user others
  subst shape
  obtain ⟨packet, db', ht, hs⟩ := settle_leaving housed.orderly hp route
  rw [hs]
  refine ⟨fun sid v hv => ?_, fun p' hp' v hv => ?_, fun p' hp' =>
    lodged.waiting p' (List.mem_of_mem_eraseIdx hp')⟩
  · simp only [World.left, Function.update_apply] at hv
    split at hv
    · cases hv
      exact homeless_current u
    · rename_i other
      exact (lodged.sessions sid v hv).leaves ht fun same =>
        others v same (Or.inl ⟨sid, other, hv⟩)
  · exact (lodged.requests p' (List.mem_of_mem_eraseIdx hp') v hv).leaves ht fun same =>
      others v same (Or.inr ⟨p', hp', hv⟩)

theorem settle_lodged {i : Nat} {lost : Bool} {σ : Config P} (housed : Housed σ)
    (alone : LeavesAlone σ (.settle i lost)) : Lodged (settle (server P) i lost σ) := by
  have lodged := housed.lodged
  rcases server_settle_cases i lost σ with same | ⟨p, hp, ⟨hs, -⟩ | ⟨r, db', rfl, he, hs⟩⟩
  · rw [same]
    exact lodged
  · have mem := List.mem_of_getElem? hp
    rw [hs]
    exact enter_lodged ⟨σ.world.fail p.ctx p.stmt, σ.pending.eraseIdx i⟩
      ⟨lodged.sessions, fun p' hp' => lodged.requests p' (List.mem_of_mem_eraseIdx hp'),
        fun p' hp' => lodged.waiting p' (List.mem_of_mem_eraseIdx hp')⟩
      (lodged.requests p mem) ((lodged.waiting p mem).fails _)
  · have mem := List.mem_of_getElem? hp
    by_cases leaver : ∃ houseID user_id, p.stmt = .removeUserHouse houseID user_id
    · obtain ⟨houseID, user_id, hstmt⟩ := leaver
      have sends := (housed.sent p mem).1.2
      rw [hstmt] at sends
      exact leave_lodged housed hp sends.leaveHouse alone
    · have sub := exec_members he fun houseID user_id h => leaver ⟨houseID, user_id, h⟩
      rw [hs]
      exact enter_lodged ⟨σ.world.complete p.ctx p.stmt r db', σ.pending.eraseIdx i⟩
        ⟨fun sid u hu => (lodged.sessions sid u hu).mono sub,
          fun p' hp' u hu => (lodged.requests p' (List.mem_of_mem_eraseIdx hp') u hu).mono sub,
          fun p' hp' => lodged.waiting p' (List.mem_of_mem_eraseIdx hp')⟩
        (fun u hu => (lodged.requests p mem u hu).mono sub)
        ((lodged.waiting p mem).completes σ.world.db r db' he)

theorem step_housed (σ : Config P) (l : Label P) (alone : LeavesAlone σ l) (housed : Housed σ) :
    Housed (step (server P) l σ) := by
  refine ⟨step_orderly l σ housed.orderly, step_sent l (fun _ _ => trivial) σ housed.sent, ?_⟩
  cases l with
  | arrive q => exact arrive_lodged alone housed.lodged
  | settle i lost => exact settle_lodged housed alone
  | disturb db => exact absurd alone id

theorem Housed.reads {σ : Config P} (housed : Housed σ) (l : Label P) : ReadsOwnHouse σ l := by
  intro i p r db _ hp _ _ house hh
  have mem := List.mem_of_getElem? hp
  obtain ⟨u, user, remembers⟩ := (housed.lodged.waiting p mem).reads house hh
  exact ⟨u, user, housed.lodged.requests p mem u user house remembers⟩

/-- Once a `house` is answered and nothing else is in flight, the session remembers a house
of its user, or none where there is none. -/
def HouseShown (σ : Config P) : Prop :=
  ∀ q u, σ.pending = [] → q.route = .house → σ.world.store q.sid = some u →
    ∃ u' : SessionUser, u'.user_id = u.user_id ∧
      (run (server P) [.arrive q, .settle 0 false] σ).world.store q.sid = some u' ∧
      ((∃ house, u'.houseID = some house ∧ Member P.collate σ.world.db.tables house u.user_id) ∨
        u'.houseID = none ∧ ∀ r ∈ σ.world.db.tables.houseUser,
          eqLit P.collate (r .user_id) (idLit u.user_id) ≠ some true)

theorem enter_send_store {c : Ctx} {answer : Answer} {user : Option SessionUser} {σ : Config P}
    (unanswered : σ.world.log.any (Event.answers c.rid) = false) :
    (enter (server P) c (Prog.send answer user) σ).world.store c.req.sid = user := by
  simp [Prog.send, enter, server, World.perform, World.answer, unanswered]

/-- The overview of a house is one look-up, and what the first row of it says. -/
theorem house_handler (P : Platform) {c : Ctx} {u : SessionUser} (route : c.req.route = .house)
    (user : c.user = some u) : ∃ k, handler P c = .issue (.getHouse u.user_id) k .done ∧
      (∀ rows : List (Row HouseUserCol), rows.head? = none →
        k (some rows) = Prog.send (.json u.js) (some u)) ∧
      ∀ (rows : List (Row HouseUserCol)) row, rows.head? = some row →
        k (some rows) = Prog.send (.json { u with houseID := cellInt (row .house_id) }.js)
          (some { u with houseID := cellInt (row .house_id) }) := by
  rw [handler, OneRoof.route, route, user]
  refine ⟨_, rfl, fun rows head => ?_, fun rows row head => ?_⟩
  · simp only [thenRun, head]
  · simp only [thenRun, head]

theorem Housed.shown {σ : Config P} (housed : Housed σ) : HouseShown σ := by
  intro q u idle route stored
  let c := σ.world.context q
  let rows := select P.collate (.eq .user_id (idLit u.user_id)) σ.world.db.tables.houseUser
  have current := housed.lodged.sessions q.sid u stored
  have unanswered : (σ.world.next.complete c (.getHouse u.user_id) rows σ.world.db).log.any
      (Event.answers c.rid) = false := by
    have old : σ.world.log.any (Event.answers c.rid) = false :=
      housed.orderly.fresh.answered (Nat.le_refl _)
    simp [World.complete, World.next, Event.answers, old]
  have hu : (σ.world.context q).user = some u := stored
  have hr : (σ.world.context q).req.route = .house := route
  obtain ⟨k, looks, absent, there⟩ := house_handler P hr hu
  have served := serve_single (σ := σ) (q := q) (s := .getHouse u.user_id) (r := rows) looks rfl
  rw [idle, List.length_nil] at served
  rw [served]
  cases head : rows.head? with
  | none =>
    rw [absent rows head]
    refine ⟨u, rfl, enter_send_store unanswered, Or.inr ?_⟩
    have none : rows = [] := List.head?_eq_none_iff.mp head
    have absent : ∀ r ∈ σ.world.db.tables.houseUser,
        eqLit P.collate (r .user_id) (idLit u.user_id) ≠ some true := fun r hr own =>
      List.filter_eq_nil_iff.mp none r hr ((Cond.hits_iff P.collate).mpr own)
    refine ⟨?_, absent⟩
    by_contra remembers
    obtain ⟨house, hh⟩ := Option.ne_none_iff_exists'.mp remembers
    obtain ⟨r, hr, own⟩ := current house hh
    exact absent r hr (of_decide_eq_true own).2
  | some row =>
    have mem := List.mem_of_mem_head? (Option.mem_def.mpr head)
    obtain ⟨n, hn⟩ := int_cell (c := HouseUserCol.house_id) rfl rfl
      σ.world.db.sound.houseUser_typed (List.mem_filter.mp mem).1
    rw [there rows row head]
    refine ⟨{ u with houseID := cellInt (row .house_id) }, rfl, enter_send_store unanswered,
      Or.inl ⟨n, ?_, ?_⟩⟩
    · simp [hn, cellInt]
    · exact house_current (P := P) (u := u) mem n (by simp [hn, cellInt])

/-- In every run in which nobody leaves a house that another session or request of the same
user remembers, the pages of a house are read by its members, and `house` shows the session
where its user is. -/
theorem house_pages_of_members (P : Platform) (db : Database P.collate)
    (store : Nat → Option SessionUser)
    (current : ∀ sid u, store sid = some u → Current P.collate db.tables u) (ls : List (Label P))
    (alone : Along (server P) LeavesAlone ls ⟨World.fresh P db store, []⟩) :
    Along (server P) ReadsOwnHouse ls ⟨World.fresh P db store, []⟩ ∧
      HouseShown (run (server P) ls ⟨World.fresh P db store, []⟩) := by
  have start : Housed (⟨World.fresh P db store, []⟩ : Config P) :=
    ⟨idle_orderly db store, fun _ hp => absurd hp List.not_mem_nil, current,
      fun _ hp => absurd hp List.not_mem_nil, fun _ hp => absurd hp List.not_mem_nil⟩
  exact ⟨along_of_invariant Housed step_housed (fun σ l _ housed => housed.reads l) alone start,
    (run_invariant LeavesAlone Housed step_housed alone start).shown⟩

/-- The tables after Ann has made a house. -/
def annHoused : Database samplePlatform.collate :=
  (run (server samplePlatform) annMoves (startUp samplePlatform)).world.db

/-- Ann in one session, which remembers her house. -/
def annAtHome (sid : Nat) : Option SessionUser :=
  if sid = 0 then some { sampleSession with houseID := some 1 } else none

/-- She looks at her house and leaves it. -/
def looksAndLeaves : List (Label samplePlatform) :=
  [.arrive { sid := 0, route := .houseDetails }, .settle 0 false,
    .arrive { sid := 0, route := .leaveHouse }, .settle 0 false]

theorem annAtHome_current (sid : Nat) (u : SessionUser) (stored : annAtHome sid = some u) :
    Current samplePlatform.collate annHoused.tables u := by
  unfold annAtHome at stored
  split at stored
  · cases stored
    rintro house ⟨⟩
    have member : ∃ r ∈ annHoused.tables.houseUser,
        leaves samplePlatform.collate (some 1) (some 1) r = true := by decide +kernel
    exact member
  · cases stored

theorem house_pages_sample :
    Along (server samplePlatform) ReadsOwnHouse looksAndLeaves
      ⟨World.fresh samplePlatform annHoused annAtHome, []⟩ ∧
    HouseShown (run (server samplePlatform) looksAndLeaves
      ⟨World.fresh samplePlatform annHoused annAtHome, []⟩) := by
  refine house_pages_of_members samplePlatform annHoused annAtHome annAtHome_current
    looksAndLeaves ⟨rfl, ?_, rfl, ?_, trivial⟩
  · intro p hp route
    cases hp
    cases route
  · intro p hp route u user v same other
    cases hp
    cases user
    rcases other with ⟨sid, apart, stored⟩ | ⟨p', hp', -⟩
    · have elsewhere : annAtHome sid = some v :=
        (Function.update_of_ne apart _ annAtHome).symm.trans stored
      have apart : sid ≠ 0 := apart
      rw [annAtHome, if_neg apart] at elsewhere
      cases elsewhere
    · cases hp'

/-- Ann in two sessions, one of which leaves the house they both remember. -/
def annLeavesHalf : List (Label samplePlatform) :=
  [.arrive { sid := 0, route := .house }, .settle 0 false,
    .arrive { sid := 1, route := .house }, .settle 0 false,
    .arrive { sid := 0, route := .leaveHouse }, .settle 0 false,
    .arrive { sid := 1, route := .houseDetails }]

/-- The first statement in flight would show a house to a user who is in none of its rows. -/
def showsStranger (σ : Config P) : Bool :=
  σ.pending.head?.any fun p => p.stmt.readsHouse.any fun house =>
    (exec P.collate p.stmt σ.world.db).any (fun (r, _) => p.stmt.shows r) &&
    p.ctx.user.any fun u => σ.world.db.tables.houseUser.all fun r =>
      !leaves P.collate (some house) u.user_id r

theorem not_readsOwnHouse {σ : Config P} (check : showsStranger σ = true) :
    ¬ ReadsOwnHouse σ (.settle 0 false) := by
  intro reads
  obtain ⟨p, hp, check⟩ := (Option.any_eq_true _ _).mp check
  obtain ⟨house, hh, check⟩ := (Option.any_eq_true _ _).mp check
  obtain ⟨answers, stranger⟩ := Bool.and_eq_true_iff.mp check
  obtain ⟨⟨r, db⟩, he, shows⟩ := (Option.any_eq_true _ _).mp answers
  obtain ⟨u, hu, nowhere⟩ := (Option.any_eq_true _ _).mp stranger
  rw [List.head?_eq_getElem?] at hp
  obtain ⟨u', hu', row, hr, own⟩ := reads 0 p r db rfl hp he shows house hh
  cases hu.symm.trans hu'
  simpa [own] using List.all_eq_true.mp nowhere row hr

theorem house_read_after_leaving :
    (annLeavesHalf.all fun l => match l with
      | .arrive q => q.route.housing
      | _ => true) = true ∧
    ¬ Along (server samplePlatform) ReadsOwnHouse (annLeavesHalf ++ [.settle 0 false])
      ⟨World.fresh samplePlatform annHoused fun _ => some sampleSession, []⟩ :=
  ⟨rfl, fun along => not_readsOwnHouse (by decide +kernel) along.last⟩

end OneRoof
