import OneRoof.Credentials
import OneRoof.Rosters

/-!
# The register of residences

What `tblHOUSE_USER` is for is a register: who lives in which house, in the order of moving
in. A completed `addUserToHouse` enters a residence and a completed `removeUserHouse` takes
all residences of one user in one house out. The table shows this register at any time, the
look-ups read it, and what stands in it for a user is the doing of that user's own sessions.
-/

namespace OneRoof

open Sql Async Async.Prog

variable {P : Platform}

/-- A user who lives in a house, and the number of the entry. -/
structure Residence where
  entry : Nat
  house : Int
  user : Int
  deriving DecidableEq

/-- The row that shows a residence. -/
def Residence.row (e : Residence) : Row HouseUserCol
  | .house_user_id => .int e.entry
  | .house_id => .int e.house
  | .user_id => .int e.user

/-- What a completed statement makes of the register. -/
def housing (_ : Ctx) : (s : Stmt) → s.Reply → List Residence → List Residence
  | .addUserToHouse (some h) (some n), packet, register =>
    register ++ [⟨packet.insertId, clip h, clip n⟩]
  | .removeUserHouse (some h) (some n), _, register =>
    register.filter fun e => !decide (e.house = h ∧ e.user = n)
  | _, _, register => register

/-- The residences that the statements of a log leave. -/
abbrev residences (log : List Event) : List Residence := replay housing [] log

section Rows

variable {collate : String → String} {db db' : Database collate}

theorem houseUserRow_residence {n : Nat} {houseId userId : Option Int} {row : Row HouseUserCol}
    (filled : houseUserRow collate n houseId userId = some row) :
    ∃ h k, houseId = some h ∧ userId = some k ∧
      row = Residence.row ⟨n, clip h, clip k⟩ := by
  obtain ⟨k, rfl, user⟩ := houseUserRow_user filled
  cases houseId with
  | none =>
    exact absurd rfl (newRow_given filled (c := .house_id) (v := .ofInt none) (by simp) rfl rfl)
  | some h =>
    refine ⟨h, k, rfl, rfl, funext fun c => ?_⟩
    cases c with
    | house_user_id => exact newRow_key filled (by simp)
    | house_id => exact houseUserRow_house filled
    | user_id => exact user

/-- Moving in makes an entry, and the answer carries its number. -/
theorem addUserToHouse_residence {houseId userId : Option Int} {r : Packet}
    (he : exec collate (.addUserToHouse houseId userId) db = some (r, db')) :
    ∃ h k, houseId = some h ∧ userId = some k ∧ db'.tables.houseUser =
      db.tables.houseUser ++ [Residence.row ⟨r.insertId, clip h, clip k⟩] := by
  obtain ⟨row, filled, he⟩ := Option.bind_eq_some_iff.mp he
  obtain ⟨tables, -, rfl⟩ := bind_commit he
  obtain ⟨h, k, rfl, rfl, rfl⟩ := houseUserRow_residence filled
  exact ⟨h, k, rfl, rfl, by rw [tables]⟩

theorem removeUserHouse_tables {houseID user_id : Option Int} {r : Packet}
    (he : exec collate (.removeUserHouse houseID user_id) db = some (r, db')) :
    db'.tables.houseUser =
      db.tables.houseUser.filter fun r => !leaves collate houseID user_id r := by
  rw [(bind_commit he).1]
  rfl

theorem Residence.leaves_iff (collate : String → String) (e : Residence)
    (houseID user_id : Option Int) :
    leaves collate houseID user_id e.row = true ↔
      houseID = some e.house ∧ user_id = some e.user := by
  have cell : ∀ (m : Int) (id : Option Int),
      eqLit collate (.int m) (idLit id) = some true ↔ id = some m := by
    intro m id
    cases id with
    | none => simp [idLit, eqLit_null]
    | some k => simp [idLit, eqLit, eq_comm]
  exact decide_eq_true_iff.trans (and_congr (cell e.house houseID) (cell e.user user_id))

/-- Statements that are not about residences leave the table. -/
theorem houseUser_same {s : Stmt} {r : s.Reply} (he : exec collate s db = some (r, db'))
    (stays : ∀ h n, s ≠ .addUserToHouse h n) (lives : ∀ h n, s ≠ .removeUserHouse h n) :
    db'.tables.houseUser = db.tables.houseUser := by
  have effect := exec_effect he
  generalize db'.tables = t at effect ⊢
  generalize db'.next = n at effect
  cases effect with
  | addUserToHouse filled => exact absurd rfl (stays _ _)
  | removeUserHouse => exact absurd rfl (lives _ _)
  | _ => rfl

end Rows

/-- The table shows the register. -/
def ShowsHousing (db : Database P.collate) (register : List Residence) : Prop :=
  db.tables.houseUser = register.map Residence.row

theorem filter_shown (register : List Residence) (collate : String → String)
    (houseID user_id : Option Int) :
    (register.map Residence.row).filter (fun r => !leaves collate houseID user_id r) =
      (register.filter fun e => !decide (houseID = some e.house ∧ user_id = some e.user)).map
        Residence.row := by
  rw [List.filter_map]
  refine congrArg (List.map _) (List.filter_congr fun e _ => ?_)
  rw [Function.comp_apply, Bool.not_inj_iff, Bool.eq_iff_iff, Residence.leaves_iff,
    decide_eq_true_iff]

theorem housing_refines :
    Refines P (fun _ => True) (fun _ _ => True) housing [] ShowsHousing where
  start := rfl
  issues _ _ := issues_of_forall (fun _ => trivial) _
  preserve := by
    intro c s r db db' register _ he shown
    cases s with
    | addUserToHouse houseId userId =>
      obtain ⟨h, k, rfl, rfl, grown⟩ := addUserToHouse_residence he
      rw [ShowsHousing, grown, shown, housing, List.map_append]
      rfl
    | removeUserHouse houseID user_id =>
      rw [ShowsHousing, removeUserHouse_tables he, shown, filter_shown]
      cases houseID with
      | none => simp [housing]
      | some h =>
        cases user_id with
        | none => simp [housing]
        | some n => simp [housing, eq_comm]
    | _ => exact (houseUser_same he (by simp) (by simp)).trans shown

/-- What a look-up has to answer while the register is this. -/
def ReadsHousing (register : List Residence) : (s : Stmt) → s.Reply → Prop
  | .getHouse (some n), rows => rows = (register.filter fun e => e.user = n).map Residence.row
  | .getHouse none, rows => rows = []
  | .getUsersInHouse (some h), rows => (rows.map (· .user_id)).Nodup ∧
    ∀ v, v ∈ rows.map (· .user_id) ↔ ∃ e ∈ register, e.house = h ∧ v = .int e.user
  | _, _ => True

theorem getHouse_reads {register : List Residence} {userId : Option Int}
    {db db' : Database P.collate} {rows : List (Row HouseUserCol)}
    (shown : ShowsHousing db register)
    (he : exec P.collate (.getHouse userId) db = some (rows, db')) :
    ReadsHousing register (.getHouse userId) rows := by
  cases he
  rw [shown]
  cases userId with
  | none =>
    refine List.filter_eq_nil_iff.mpr fun r _ hit => ?_
    have equal := (Cond.hits_iff P.collate).mp hit
    simp [Cond.eval, idLit, eqLit_null] at equal
  | some n =>
    simp only [ReadsHousing, select, List.filter_map]
    refine congrArg (List.map _) (List.filter_congr fun e _ => ?_)
    rw [Function.comp_apply, Bool.eq_iff_iff, Cond.hits_iff, decide_eq_true_iff]
    simp [Cond.eval, Residence.row, idLit, eqLit]

theorem getUsersInHouse_reads {register : List Residence} {houseID : Option Int}
    {db db' : Database P.collate} {rows : List (Row UserCol)}
    (shown : ShowsHousing db register)
    (he : exec P.collate (.getUsersInHouse houseID) db = some (rows, db')) :
    ReadsHousing register (.getUsersInHouse houseID) rows := by
  cases houseID with
  | none => cases he
  | some h =>
    cases he
    obtain ⟨once, exact⟩ := usersInHouse_lists db h
    refine ⟨once, fun v => ?_⟩
    have lives : LivesIn db.tables h v ↔ ∃ e ∈ register, e.house = h ∧ v = .int e.user := by
      rw [LivesIn, shown]
      simp [Residence.row, eq_comm]
    rw [← lives, List.mem_map]
    constructor
    · rintro ⟨u, listed, rfl⟩
      exact ((exact u).mp listed).2
    · rintro ⟨hu, mem, house, rfl⟩
      have given := int_cell (c := HouseUserCol.user_id) rfl rfl db.sound.houseUser_typed mem
      rcases db.sound.houseUser_user hu mem with null | ⟨u, known, same⟩
      · obtain ⟨n, number⟩ := given
        rw [null] at number
        cases number
      · have equal : hu .user_id = u .user_id := (int_cells_equal ⟨rfl, rfl⟩ ⟨rfl, rfl⟩
          db.sound.houseUser_typed db.sound.user_typed mem known).mp same
        exact ⟨u, (exact u).mpr ⟨known, hu, mem, house, equal⟩, equal.symm⟩

/-- At any time of any run `tblHOUSE_USER` is the register that the completed statements
leave, and whatever a look-up of a house or of its members has answered is what the register
held when it ran. -/
theorem housing_register (P : Platform) (ls : List (Label P)) (own : ∀ l ∈ ls, Label.own P l) :
    ShowsHousing (run (server P) ls (startUp P)).world.db
        (residences (run (server P) ls (startUp P)).world.log) ∧
      ∀ front c s r rest, (run (server P) ls (startUp P)).world.log =
        front ++ .completed c s r :: rest → ReadsHousing (residences front) s r := by
  have labels : ∀ l ∈ ls, Admissible P (fun _ => True) l :=
    fun l mem => admissible_of_own (own l mem)
  refine ⟨housing_refines.replayed labels, fun front c s r rest logged => ?_⟩
  obtain ⟨-, db, db', shown, he⟩ := housing_refines.answered labels logged
  cases s with
  | getHouse userId => exact getHouse_reads shown he
  | getUsersInHouse houseID => exact getUsersInHouse_reads shown he
  | _ => trivial

theorem housing_register_sample :
    residences
      (run (server samplePlatform) annLeavesTwice (startUp samplePlatform)).world.log ≠ [] ∧
    ShowsHousing (run (server samplePlatform) annLeavesTwice (startUp samplePlatform)).world.db
      (residences
        (run (server samplePlatform) annLeavesTwice (startUp samplePlatform)).world.log) :=
  ⟨by decide +kernel, (housing_register samplePlatform annLeavesTwice (by decide)).1⟩

section Owners

/-- What is in the log was executed on some tables, sent by the handler of its request, and
the user of that request had been let in. -/
theorem completed_of_logged {ls : List (Label P)} (own : ∀ l ∈ ls, Label.own P l) {c : Ctx}
    {s : Stmt} {r : s.Reply}
    (logged : .completed c s r ∈ (run (server P) ls (startUp P)).world.log) :
    (∃ db db' : Database P.collate, exec P.collate s db = some (r, db')) ∧ Sends P c s ∧
      c.Admitted 0 (run (server P) ls (startUp P)).world := by
  have letIn := occurs_let_in own (Or.inr ⟨_, logged, rfl⟩)
  obtain ⟨front, rest, split⟩ := List.append_of_mem logged
  obtain ⟨before, l, after, rfl, -, ⟨k, flies⟩, he⟩ := executedIn_of_logged own rfl split
  have own' : ∀ l ∈ before, Label.own P l := fun l mem => own l (List.mem_append_left _ mem)
  exact ⟨⟨_, _, he⟩, (run_sends own' _ flies).1, letIn⟩

/-- The id of a row fits its column. -/
theorem cellInt_clip {t : Tables} (typed : Typed t.user) {row : Row UserCol}
    (mem : row ∈ t.user) {n : Int} (id : cellInt (row .user_id) = some n) : clip n = n := by
  obtain ⟨k, number⟩ := int_cell (c := UserCol.user_id) rfl rfl typed mem
  rw [number] at id
  cases id
  exact clip_cell rfl typed mem number

theorem selectUser_mem {col : UserCol} {v : JsVal} {db db' : Database P.collate}
    {rows : List (Row UserCol)} (he : selectUser P.collate col v db = some (rows, db')) :
    ∀ row ∈ rows, row ∈ db.tables.user := by
  obtain ⟨w, -, he⟩ := Option.bind_eq_some_iff.mp he
  obtain ⟨q, -, he⟩ := Option.bind_eq_some_iff.mp he
  cases he
  exact fun row mem => (List.mem_filter.mp mem).1

/-- The id of whoever was let in fits the columns that hold ids. -/
theorem LetIn.clip_id {ls : List (Label P)} (own : ∀ l ∈ ls, Label.own P l) {c : Ctx}
    {u : SessionUser} (letIn : LetIn P (run (server P) ls (startUp P)).world.log c u) {n : Int}
    (id : u.user_id = some n) : clip n = n := by
  have found : ∀ {email : JsVal} {rows : List (Row UserCol)} {row : Row UserCol},
      .completed c (.getUser email) rows ∈ (run (server P) ls (startUp P)).world.log →
      rows.head? = some row → cellInt (row .user_id) = some n → clip n = n := by
    intro email rows row logged head id
    obtain ⟨⟨db, db', he⟩, -⟩ := completed_of_logged own logged
    exact cellInt_clip db.sound.user_typed (selectUser_mem he row (List.mem_of_head? head)) id
  cases letIn with
  | login _ logged head => exact found logged head id
  | signup _ _ _ _ logged head => exact found logged head id
  | known _ logged head =>
    obtain ⟨⟨db, db', he⟩, -⟩ := completed_of_logged own logged
    exact cellInt_clip db.sound.user_typed (selectUser_mem he _ (List.mem_of_head? head)) id
  | @joined profile token email packet _ _ created =>
    obtain ⟨⟨db, db', he⟩, -⟩ := completed_of_logged own created
    obtain ⟨row, filled, tables, number⟩ := exec_createUser he
    have mem : row ∈ db'.tables.user := by simp [tables]
    have key : row .user_id = .int packet.insertId := by
      rw [number]
      exact newRow_key filled (by simp)
    cases id
    exact clip_cell rfl db'.sound.user_typed mem key

theorem Ctx.Admitted.clip_id {ls : List (Label P)} (own : ∀ l ∈ ls, Label.own P l) {c : Ctx}
    (known : c.Admitted 0 (run (server P) ls (startUp P)).world) {u : SessionUser}
    (user : c.user = some u) {n : Int} (id : u.user_id = some n) : clip n = n := by
  obtain ⟨c', u₀, -, -, letIn, same⟩ := known.user u user
  exact letIn.clip_id own (same.user_id ▸ id)

/-- The user whose session an event belongs to. -/
def Event.ofUser (n : Int) (e : Event) : Bool := e.ctx.user.bind SessionUser.user_id = some n

/-- The statements of others leave the residences of a user, and those of the user's own
sessions treat them as they do where nobody else lives. -/
theorem housing_apart {c : Ctx} {s : Stmt} {r : s.Reply} (sends : Sends P c s)
    (clips : ∀ u m, c.user = some u → u.user_id = some m → clip m = m) (n : Int)
    (register : List Residence) :
    (housing c s r register).filter (fun e => decide (e.user = n)) =
      if c.user.bind SessionUser.user_id = some n then
        housing c s r (register.filter fun e => decide (e.user = n))
      else register.filter fun e => decide (e.user = n) := by
  cases sends with
  | select reads => cases s <;> simp_all [Stmt.isSelect, housing]
  | @addUserToHouse u houseId user route =>
    rw [user, Option.bind_some]
    cases houseId with
    | none => simp [housing]
    | some h =>
      cases id : u.user_id with
      | none => simp [housing]
      | some m =>
        have range := clips u m user id
        by_cases mine : m = n
        · simp [housing, ← mine, range]
        · simp [housing, mine, range]
  | @removeUserHouse u route user =>
    rw [user, Option.bind_some]
    cases u.houseID with
    | none => simp [housing]
    | some h =>
      cases id : u.user_id with
      | none => simp [housing]
      | some m =>
        by_cases mine : m = n
        · simp [housing, mine, List.filter_filter, Bool.and_comm]
        · rw [if_neg (by simpa using mine)]
          refine List.filter_filter.trans ?_
          refine List.filter_congr fun e _ => ?_
          by_cases user : e.user = n
          · simp [user, Ne.symm mine]
          · simp [user]
  | _ => simp [housing]

theorem residences_own {log : List Event} (n : Int)
    (sent : ∀ c s r, .completed c s r ∈ log → Sends P c s ∧
      ∀ u m, c.user = some u → u.user_id = some m → clip m = m) :
    (residences log).filter (fun e => decide (e.user = n)) =
      residences (log.filter (Event.ofUser n)) := by
  induction log using List.reverseRecOn with
  | nil => rfl
  | append_singleton log e ih =>
    have ih := ih fun c s r mem => sent c s r (List.mem_append_left _ mem)
    simp only [residences] at ih ⊢
    rw [replay_append, List.filter_append, replay_append, ← ih]
    cases e with
    | completed c s r =>
      obtain ⟨sends, clips⟩ := sent c s r (List.mem_append_right _ (List.mem_singleton_self _))
      refine (housing_apart sends clips n _).trans ?_
      by_cases mine : c.user.bind SessionUser.user_id = some n
      · simp [replay, Event.ofUser, Event.ctx, mine]
      · simp [replay, Event.ofUser, Event.ctx, mine]
    | _ =>
      simp only [List.filter_cons, List.filter_nil]
      split <;> rfl

/-- The houses of a user are what the completed statements of the user's own sessions make,
whatever everybody else sends in between. -/
theorem housing_own (P : Platform) (ls : List (Label P)) (own : ∀ l ∈ ls, Label.own P l)
    (n : Int) :
    (run (server P) ls (startUp P)).world.db.tables.houseUser.filter
        (fun r => decide (r .user_id = .int n)) =
      (residences ((run (server P) ls (startUp P)).world.log.filter (Event.ofUser n))).map
        Residence.row := by
  have shown : ShowsHousing _ _ :=
    housing_refines.replayed fun l mem => admissible_of_own (own l mem)
  have sent : ∀ c s r, .completed c s r ∈ (run (server P) ls (startUp P)).world.log →
      Sends P c s ∧ ∀ u m, c.user = some u → u.user_id = some m → clip m = m := by
    intro c s r logged
    obtain ⟨-, sends, known⟩ := completed_of_logged own logged
    exact ⟨sends, fun u m user id => known.clip_id own user id⟩
  rw [← residences_own n sent, shown, List.filter_map]
  refine congrArg (List.map _) (List.filter_congr fun e _ => ?_)
  simp [Residence.row]

theorem housing_own_sample :
    (run (server samplePlatform) annLeavesTwice (startUp samplePlatform)).world.log.filter
        (Event.ofUser 1) ≠ [] ∧
    (run (server samplePlatform) annLeavesTwice
        (startUp samplePlatform)).world.db.tables.houseUser.filter
        (fun r => decide (r .user_id = .int 1)) =
      (residences ((run (server samplePlatform) annLeavesTwice
        (startUp samplePlatform)).world.log.filter (Event.ofUser 1))).map Residence.row := by
  refine ⟨fun none => ?_, housing_own samplePlatform annLeavesTwice (by decide) 1⟩
  have some : ((run (server samplePlatform) annLeavesTwice
      (startUp samplePlatform)).world.log.filter (Event.ofUser 1)).isEmpty = false := by
    decide +kernel
  rw [none] at some
  cases some

end Owners

end OneRoof
