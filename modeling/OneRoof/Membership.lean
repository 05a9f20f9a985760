import Mathlib.Data.List.Nodup
import OneRoof.Lib.Weights
import OneRoof.Runs

/-!
# How many houses a user is in

`createHouse` and `joinHouse` insert a row of `tblHOUSE_USER` for the user of their
session without a look at the rows there are, and no key of the table forbids a
second one. A user is in one house at most as long as each such request arrives
when its user is in none and has no other such request in flight.
-/

namespace OneRoof

open Sql Async Async.Prog Prog

variable {P : Platform}

/-- The id a session's user has in an INT column. -/
def Ctx.member (c : Ctx) : Option Int := c.user.bind fun u => u.user_id.map clip

/-- The routes that put somebody into a house. -/
def Route.moves : Route → Bool
  | .createHouse | .joinHouse => true
  | _ => false

/-- The users of `tblHOUSE_USER`, once for each row. -/
def Tables.members (t : Tables) : List Value := t.houseUser.map fun r => r .user_id

/-- A statement that puts the user `m` into a house. -/
def Stmt.moves (m : Int) : Stmt → Bool
  | .addUserToHouse _ (some n) => clip n = m
  | _ => false

theorem Sends.moves {c : Ctx} {s : Stmt} (sends : Sends P c s) {m : Int}
    (marked : s.moves m = true) : c.req.route.moves = true ∧ c.member = some m := by
  cases sends with
  | select reads => cases s <;> simp_all [Stmt.isSelect, Stmt.moves]
  | @addUserToHouse u houseId user route =>
    constructor
    · rcases route with route | route <;> rw [route] <;> rfl
    · cases hn : u.user_id with
      | none =>
        rw [hn] at marked
        cases marked
      | some n =>
        rw [hn] at marked
        simpa [Ctx.member, user, hn, Stmt.moves] using marked
  | _ => cases marked

section Exec

variable {collate : String → String} {db db' : Database collate}

/-- The member that is put into a house. -/
theorem houseUserRow_user {n : Nat} {houseId userId : Option Int} {row : Row HouseUserCol}
    (filled : houseUserRow collate n houseId userId = some row) :
    ∃ k, userId = some k ∧ row .user_id = .int (clip k) := by
  cases userId with
  | none =>
    exact absurd rfl (newRow_given filled (c := .user_id) (v := .ofInt none) (by simp) rfl rfl)
  | some k =>
    exact ⟨k, rfl, newRow_cell filled (c := .user_id) (v := .num k) (by simp)
      (by simp [JsVal.ofInt]) rfl⟩

theorem count_members_exec {s : Stmt} {r : s.Reply} (he : exec collate s db = some (r, db'))
    (m : Int) : db'.tables.members.count (.int m) ≤
      db.tables.members.count (.int m) + (s.moves m).toNat := by
  have effect := exec_effect he
  generalize db'.tables = t at effect ⊢
  generalize db'.next = n at effect
  cases effect with
  | @addUserToHouse houseId userId row filled =>
    obtain ⟨k, rfl, hk⟩ := houseUserRow_user filled
    simp only [Tables.members, List.map_append, List.map_cons, List.map_nil, List.count_append,
      List.count_singleton, hk, Stmt.moves]
    by_cases same : clip k = m <;> simp [same]
  | removeUserHouse stays =>
    simp only [Tables.members, Stmt.moves]
    exact (List.filter_sublist.map _).count_le _
  | _ => simp [Tables.members]

end Exec

/-- A request that puts its user into a house arrives when the user is in none and no
other such request is in flight. -/
def MovesAlone (σ : Config P) (l : Label P) : Prop :=
  Label.own P l ∧ ∀ q m, l = .arrive q → q.route.moves = true →
    (σ.world.context q).member = some m → .int m ∉ σ.world.db.tables.members ∧
      ∀ p ∈ σ.pending, p.ctx.req.route.moves = true → p.ctx.member ≠ some m

section Quota

variable (m : Int)

/-- Rows for a user, and the statements that may add one. -/
def Moving (σ : Config P) : Prop :=
  Quota (fun (_ : Ctx) s => Stmt.moves m s) (fun _ (_ : Act) => false)
    (fun w : World P => w.db.tables.members.count (.int m)) σ

theorem moving_metered : Metered (fun (_ : Ctx) s => Stmt.moves m s) (fun _ (_ : Act) => false)
    (server P) (fun _ _ => True) (fun w => w.db.tables.members.count (.int m)) where
  exec := by
    intro c s w r w' _ he
    obtain ⟨⟨r', db'⟩, hx, hw⟩ := Option.map_eq_some_iff.mp he
    cases hw
    exact count_members_exec hx m
  refuse _ _ _ := Nat.le_refl _
  perform c a w := by simp [perform_db c a w]
  first h := nomatch h

variable {m}

theorem Sends.unmoved {c : Ctx} {s : Stmt} (sends : Sends P c s)
    (other : ¬ (c.req.route.moves = true ∧ c.member = some m)) : s.moves m = false := by
  by_contra marked
  exact other (sends.moves (by simpa using marked))

/-- One row at most for each request. -/
theorem handler_moves_once (c : Ctx) (route : c.req.route.moves = true) :
    (handler P c).Costs (fun _ s => Stmt.moves m s) (fun _ _ => false) c 0 1 := by
  have adds : ∀ (houseId userId : Option Int) (rest : Prog),
      rest.Costs (fun _ s => Stmt.moves m s) (fun _ _ => false) c 0 0 →
      (start (.addUserToHouse houseId userId) rest).Costs
        (fun _ s => Stmt.moves m s) (fun _ _ => false) c 0 1 := fun houseId userId rest hr =>
    ⟨0, 0, by simpa using Bool.toNat_le _, fun _ => trivial, hr⟩
  have sends : ∀ answer user, (Prog.send answer user).Costs (fun _ s => Stmt.moves m s)
      (fun _ _ => false) c 0 0 := fun answer user =>
    costs_zero (send_issues _ _) (acts_of_forall (fun _ => rfl) _)
  cases hr : c.req.route with
  | createHouse =>
    rw [handler, OneRoof.route, hr]
    refine ⟨1, 0, by simp [Stmt.moves], fun r => ?_, trivial⟩
    cases r with
    | none => exact (sends _ _).mono (Nat.zero_le 1)
    | some rows =>
      refine Costs.recover (t := 0) ?_ (sends _ _)
      cases c.user with
      | none => exact Nat.zero_le 1
      | some u => exact adds _ _ _ (sends _ _)
  | joinHouse =>
    rw [handler, OneRoof.route, hr]
    refine ⟨1, 0, by simp [Stmt.moves], fun r => ?_, trivial⟩
    cases r with
    | none => trivial
    | some rows =>
      refine Costs.recover (t := 0) ?_ trivial
      dsimp only
      split
      · cases c.user with
        | none => exact Nat.zero_le 1
        | some u => exact adds _ _ _ trivial
      · exact (sends _ _).mono (Nat.zero_le 1)
  | _ => simp [hr, Route.moves] at route

/-- Where no request of the user may move it, nothing is owed. -/
theorem moving_arrive (q : Request) (σ : Config P) (sent : Sent (fun _ => True) σ)
    (moving : Moving m σ) (alone : q.route.moves = true → (σ.world.context q).member = some m →
      .int m ∉ σ.world.db.tables.members ∧
        ∀ p ∈ σ.pending, p.ctx.req.route.moves = true → p.ctx.member ≠ some m) :
    Moving m (step (server P) (.arrive q) σ) := by
  rw [arrive_eq]
  by_cases moves : q.route.moves = true ∧ (σ.world.context q).member = some m
  · obtain ⟨absent, nobody⟩ := alone moves.1 moves.2
    refine enter_quota (moving_metered m) (handler P _) ⟨σ.world.next, σ.pending⟩
      (handler_moves_once _ moves.1) (weighed_zero fun p hp => ?_) ?_
    · have other : ¬ (p.ctx.req.route.moves = true ∧ p.ctx.member = some m) := fun h =>
        nobody p hp h.1 h.2
      obtain ⟨first, later⟩ := sent p hp
      exact owes_nothing first later (fun s h => h.2.unmoved other) fun _ => rfl
    · change σ.world.db.tables.members.count (.int m) + 1 + 0 ≤ 1
      rw [List.count_eq_zero.mpr absent]
  · obtain ⟨n, weighed, total⟩ := moving
    exact enter_quota (moving_metered m) (handler P _) ⟨σ.world.next, σ.pending⟩
      (costs_zero ((handler_issues P _).mono fun s sends => sends.unmoved moves)
        (acts_of_forall (fun _ => rfl) _)) weighed total

end Quota

/-- One step that moves nobody twice. -/
theorem step_moving (σ : Config P) (l : Label P) (alone : MovesAlone σ l)
    (h : Sent (fun _ => True) σ ∧ ∀ m, Moving m σ) :
    Sent (fun _ => True) (step (server P) l σ) ∧ ∀ m, Moving m (step (server P) l σ) := by
  obtain ⟨sent, moving⟩ := h
  refine ⟨step_sent l (fun _ _ => trivial) σ sent, fun m => ?_⟩
  cases l with
  | arrive q => exact moving_arrive q σ sent (moving m) (alone.2 q m rfl)
  | settle i lost => exact settle_quota (moving_metered m) i lost σ (fun _ _ => trivial) (moving m)
  | disturb db => exact absurd alone.1 id

theorem members_nodup {db : Database P.collate}
    (once : ∀ m : Int, db.tables.members.count (.int m) ≤ 1) : db.tables.members.Nodup := by
  rw [List.nodup_iff_count_le_one]
  intro v
  by_cases mem : v ∈ db.tables.members
  · obtain ⟨r, hr, rfl⟩ := List.mem_map.mp mem
    obtain ⟨n, hn⟩ := int_cell (c := HouseUserCol.user_id) rfl rfl db.sound.houseUser_typed hr
    rw [hn]
    exact once n
  · rw [List.count_eq_zero.mpr mem]
    exact Nat.zero_le 1

/-- In every run in which nobody moves twice, every user is in one house at most. -/
theorem one_house_per_user (P : Platform) (ls : List (Label P))
    (alone : Along (server P) MovesAlone ls (startUp P)) :
    (run (server P) ls (startUp P)).world.db.tables.members.Nodup := by
  have moving := (run_invariant MovesAlone _ step_moving alone
    ⟨startUp_sent _, fun m => ⟨0, .nil, Nat.zero_le 1⟩⟩).2
  refine members_nodup fun m => ?_
  obtain ⟨n, -, total⟩ := moving m
  exact Nat.le_trans (Nat.le_add_right _ n) total

/-- The condition as a check on the state before a step. -/
def movesAlone (σ : Config P) : Label P → Bool
  | .arrive q => match (σ.world.context q).member with
    | some m => !q.route.moves || !σ.world.db.tables.members.contains (.int m) &&
        σ.pending.all fun p => !p.ctx.req.route.moves || p.ctx.member ≠ some m
    | none => true
  | .settle _ _ => true
  | .disturb _ => false

theorem movesAlone_of_check {σ : Config P} {l : Label P} (check : movesAlone σ l = true) :
    MovesAlone σ l := by
  cases l with
  | settle i lost => exact ⟨trivial, fun q m h => nomatch h⟩
  | disturb db => cases check
  | arrive q =>
    refine ⟨trivial, fun q' m h moves member => ?_⟩
    cases h
    simp only [movesAlone, member, moves, Bool.not_true, Bool.false_or, Bool.and_eq_true,
      List.all_eq_true] at check
    exact ⟨by simpa using check.1,
      fun p hp moves' same => by simpa [moves', same] using check.2 p hp⟩

/-- Ann signs up and makes a house. -/
def annMoves : List (Label samplePlatform) :=
  [.arrive { sid := 0, route := .signup, body := .obj [("email", .str "ann@x"),
      ("password", .str "pw"), ("confirmPass", .str "pw"), ("displayName", .str "Ann")] },
    .settle 0 false, .settle 0 false, .settle 0 false, .settle 0 false, .settle 0 false,
    .arrive { sid := 0, route := .createHouse, body := .obj [("setHouseName", .str "attic")] },
    .settle 0 false, .settle 0 false]

theorem one_house_sample :
    (run (server samplePlatform) annMoves (startUp samplePlatform)).world.db.tables.members =
      [.int 1] ∧
    (run (server samplePlatform) annMoves (startUp samplePlatform)).world.db.tables.members.Nodup :=
  ⟨by decide +kernel, one_house_per_user samplePlatform annMoves
    (along_of_check movesAlone (fun _ _ => movesAlone_of_check) (by decide +kernel))⟩

/-- The request to join the house with the code that is made of zeros. -/
def joinZeros : Request where
  sid := 0
  route := .joinHouse
  body := .obj [("enterHouseCode", .str "00000000")]

/-- She joins the house she has made, and is in it twice. -/
theorem joined_twice :
    (∀ l ∈ annMoves ++ [.arrive joinZeros, .settle 0 false, .settle 0 false],
      Label.own samplePlatform l) ∧
    ¬ (run (server samplePlatform) (annMoves ++ [.arrive joinZeros, .settle 0 false,
      .settle 0 false]) (startUp samplePlatform)).world.db.tables.members.Nodup :=
  ⟨by decide, by decide +kernel⟩

end OneRoof
