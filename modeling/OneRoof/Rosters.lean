import Mathlib.Data.List.Dedup
import OneRoof.Housemates
import OneRoof.Lib.Joins

/-!
# Who lives in a house, and its groups

Two lists are read for a house: its members, by `getUsersInHouse`, and the groups its
members are in, by `getHouseGroups`. Both join the tables row by row. The members are
made distinct; the groups are not, so that a group shows once for each way from one of
its rows to a row of the house.
-/

namespace OneRoof

open Sql Async Async.Prog Prog

variable {P : Platform}

/-- A row of `tblHOUSE_USER` puts the user into the house. -/
def LivesIn (t : Tables) (h : Int) (user_id : Value) : Prop :=
  ∃ hu ∈ t.houseUser, hu .house_id = .int h ∧ hu .user_id = user_id

instance (t : Tables) (h : Int) (user_id : Value) : Decidable (LivesIn t h user_id) :=
  inferInstanceAs (Decidable (∃ hu ∈ t.houseUser, _))

/-- A row of `tblUSER_GROUPS` puts somebody who lives in the house into the group. -/
def HasMember (t : Tables) (h : Int) (g : Row GroupCol) : Prop :=
  ∃ ug ∈ t.userGroups, ug .group_id = g .group_id ∧ LivesIn t h (ug .user_id)

section Members

variable {db : Database P.collate}

theorem mem_usersInHouse {h : Int} {u : Row UserCol} :
    u ∈ usersInHouse P.collate h db.tables ↔
      u ∈ db.tables.user ∧ LivesIn db.tables h (u .user_id) := by
  simp only [usersInHouse, List.mem_dedup, List.mem_flatMap, List.mem_map, List.mem_filter,
    decide_eq_true_eq]
  have same : ∀ {v hu}, v ∈ db.tables.user → hu ∈ db.tables.houseUser →
      (eqValue P.collate (v .user_id) (hu .user_id) = some true ↔ v .user_id = hu .user_id) :=
    fun hv hhu => int_cells_equal ⟨rfl, rfl⟩ ⟨rfl, rfl⟩ db.sound.user_typed
      db.sound.houseUser_typed hv hhu
  constructor
  · rintro ⟨v, hv, hu, ⟨hhu, users, houses⟩, rfl⟩
    exact ⟨hv, hu, hhu, (int_cell_lit ⟨rfl, rfl⟩ db.sound.houseUser_typed hhu h).mp houses,
      ((same hv hhu).mp users).symm⟩
  · rintro ⟨hv, hu, hhu, houses, users⟩
    exact ⟨u, hv, hu, ⟨hhu, (same hv hhu).mpr users.symm,
      (int_cell_lit ⟨rfl, rfl⟩ db.sound.houseUser_typed hhu h).mpr houses⟩, rfl⟩

/-- The list holds each member of the house once, with the columns the user has now. -/
structure ListsMembers (t : Tables) (h : Int) (rows : List (Row UserCol)) : Prop where
  once : (rows.map (· .user_id)).Nodup
  exact : ∀ u, u ∈ rows ↔ u ∈ t.user ∧ LivesIn t h (u .user_id)

theorem usersInHouse_lists (db : Database P.collate) (h : Int) :
    ListsMembers db.tables h (usersInHouse P.collate h db.tables) := by
  refine ⟨?_, fun u => mem_usersInHouse⟩
  refine List.Nodup.map_on ?_ (List.nodup_dedup _)
  intro u hu v hv same
  exact db.sound.user_key.eq_of_number ⟨rfl, rfl⟩ db.sound.user_typed (mem_usersInHouse.mp hu).1
    (mem_usersInHouse.mp hv).1 same

/-- Those who live in the house after somebody has left it. -/
theorem livesIn_left {db' : Database P.collate} {h n : Int}
    (ht : db'.tables.houseUser = db.tables.houseUser.filter
      (fun r => !leaves P.collate (some h) (some n) r)) (v : Value) :
    LivesIn db'.tables h v ↔ LivesIn db.tables h v ∧ v ≠ .int n := by
  have gone : ∀ hu ∈ db.tables.houseUser, leaves P.collate (some h) (some n) hu = true ↔
      hu .house_id = .int h ∧ hu .user_id = .int n := by
    intro hu hhu
    have cell : ∀ (c : HouseUserCol) (m : Int),
        eqLit P.collate (hu c) (.num m) = some true ↔ hu c = .int m :=
      fun _ m => int_cell_lit ⟨rfl, rfl⟩ db.sound.houseUser_typed hhu m
    exact decide_eq_true_iff.trans (and_congr (cell .house_id h) (cell .user_id n))
  constructor
  · rintro ⟨hu, mem, house, user⟩
    rw [ht] at mem
    obtain ⟨hhu, stays⟩ := List.mem_filter.mp mem
    refine ⟨⟨hu, hhu, house, user⟩, ?_⟩
    rintro rfl
    rw [(gone hu hhu).mpr ⟨house, user⟩] at stays
    cases stays
  · rintro ⟨⟨hu, hhu, house, user⟩, other⟩
    refine ⟨hu, ?_, house, user⟩
    rw [ht]
    refine List.mem_filter.mpr ⟨hhu, ?_⟩
    rw [Bool.not_eq_true', Bool.eq_false_iff]
    intro leaving
    exact other (user.symm.trans ((gone hu hhu).mp leaving).2)

end Members

/-- What `getUsersInHouse` answers in a state. -/
def MemberList (σ : Config P) (h : Int) (rows : List (Row UserCol)) : Prop :=
  exec P.collate (.getUsersInHouse (some h)) σ.world.db = some (rows, σ.world.db)

/-- In every reachable state, with any history behind it, `getUsersInHouse` lists the members
of the house; and a `leaveHouse` that runs with the house in its session takes its user out
of the list and nobody else, however many rows the user had. -/
theorem member_list_exact {σ : Config P} (reachable : Reachable P σ) (h : Int) :
    ∃ rows, MemberList σ h rows ∧ ListsMembers σ.world.db.tables h rows ∧
      ∀ i p u n, σ.pending[i]? = some p → p.ctx.req.route = .leaveHouse → p.ctx.user = some u →
        u.houseID = some h → u.user_id = some n →
        ∃ rows', MemberList (settle (server P) i false σ) h rows' ∧
          ListsMembers (settle (server P) i false σ).world.db.tables h rows' ∧
          ∀ v, v ∈ rows' ↔ v ∈ rows ∧ v .user_id ≠ .int n := by
  refine ⟨_, rfl, usersInHouse_lists σ.world.db h, ?_⟩
  intro i p u n waits route user house id
  refine ⟨_, rfl, usersInHouse_lists _ h, fun v => ?_⟩
  obtain ⟨⟨u', user', shape⟩, -⟩ :=
    reachable.orderly.leaves p (List.mem_of_getElem? waits) route
  cases user.symm.trans user'
  generalize p.ctx = c at shape
  subst shape
  obtain ⟨r, db', he, ht⟩ := exec_removeUserHouse u.houseID u.user_id σ.world.db
  have moved : (settle (server P) i false σ).world.db = db' := by
    rw [settle_at waits he, enter_db]
    rfl
  have users : db'.tables.user = σ.world.db.tables.user := by rw [ht]
  have stay : db'.tables.houseUser = σ.world.db.tables.houseUser.filter
      (fun r => !leaves P.collate (some h) (some n) r) := by
    rw [ht, house, id]
  rw [moved, mem_usersInHouse, mem_usersInHouse, users, livesIn_left stay]
  exact and_assoc.symm

/-- Ann joins her own house once more and is about to leave it. -/
def annLeavesTwice : List (Label samplePlatform) :=
  annMoves ++ [.arrive joinZeros, .settle 0 false, .settle 0 false] ++
    [.arrive { sid := 0, route := .house }, .settle 0 false,
      .arrive { sid := 0, route := .leaveHouse }]

theorem member_list_sample : ∃ rows,
    MemberList (run (server samplePlatform) annLeavesTwice (startUp samplePlatform)) 1 rows ∧
    (∃ v ∈ rows, v .user_id = .int 1) ∧
    ∃ rows', MemberList (run (server samplePlatform) (annLeavesTwice ++ [.settle 0 false])
        (startUp samplePlatform)) 1 rows' ∧ ∀ v ∈ rows', v .user_id ≠ .int 1 := by
  obtain ⟨p, u, waits, route, user, known⟩ := first_leaving
    (run (server samplePlatform) annLeavesTwice (startUp samplePlatform))
    (fun u => decide (u.user_id = some 1 ∧ u.houseID = some 1)) (by decide +kernel)
  obtain ⟨id, house⟩ := of_decide_eq_true known
  obtain ⟨rows, lists, exact, leaving⟩ := member_list_exact ⟨annLeavesTwice, by decide, rfl⟩ 1
  obtain ⟨rows', lists', -, left⟩ := leaving 0 p u 1 waits route user house id
  have listed : ∃ v ∈ (run (server samplePlatform) annLeavesTwice
      (startUp samplePlatform)).world.db.tables.user, v .user_id = .int 1 ∧
      ∃ hu ∈ (run (server samplePlatform) annLeavesTwice
        (startUp samplePlatform)).world.db.tables.houseUser,
        hu .house_id = .int 1 ∧ hu .user_id = v .user_id := by decide +kernel
  obtain ⟨v, hv, hn, lives⟩ := listed
  refine ⟨rows, lists, ⟨v, (exact.exact v).mpr ⟨hv, lives⟩, hn⟩, rows', ?_, fun v hv =>
    ((left v).mp hv).2⟩
  rw [run_append]
  exact lists'

section Groups

/-- A row of the join behind `getHouseGroups`. -/
abbrev GroupListing := Row UserGroupCol × Row UserCol × Row HouseUserCol × Row GroupCol

/-- The ids of the menu that `house.html` makes of `$scope.responsibilityGroups`. -/
def groupMenu : JsVal → List JsVal
  | .arr responsibilityGroups => responsibilityGroups.map fun item => item.get "group_id"
  | _ => []

/-- Each group with a member in the house is listed exactly once, and no other group. -/
structure ListsGroupsOnce (t : Tables) (h : Int) (listed : List GroupListing) : Prop where
  once : ∀ g ∈ t.group, HasMember t h g → listed.countP (fun r => r.2.2.2 = g) = 1
  only : ∀ r ∈ listed, r.2.2.2 ∈ t.group ∧ HasMember t h r.2.2.2

/-- A group has one row at most whose user lives in the house, and such a user has one row
of the house at most. -/
structure OneWayIn (t : Tables) (h : Int) : Prop where
  member : ∀ ug ∈ t.userGroups, ∀ ug' ∈ t.userGroups, LivesIn t h (ug .user_id) →
    LivesIn t h (ug' .user_id) → ug .group_id = ug' .group_id → ug = ug'
  row : ∀ ug ∈ t.userGroups, ∀ hu ∈ t.houseUser, ∀ hu' ∈ t.houseUser, hu .house_id = .int h →
    hu .user_id = ug .user_id → hu' .house_id = .int h → hu' .user_id = ug .user_id → hu = hu'

variable {db : Database P.collate} {h : Int}

/-- Where the join goes: from a row of a group to a row of the house. -/
theorem mem_houseGroups {r : GroupListing} :
    r ∈ houseGroups P.collate (some h) db.tables ↔
      (r.1 ∈ db.tables.userGroups ∧ r.2.1 ∈ db.tables.user ∧ r.2.2.1 ∈ db.tables.houseUser ∧
        r.2.2.2 ∈ db.tables.group) ∧
      r.2.1 .user_id = r.1 .user_id ∧ r.2.2.1 .user_id = r.2.1 .user_id ∧
        r.2.2.2 .group_id = r.1 .group_id ∧ r.2.2.1 .house_id = .int h := by
  obtain ⟨ug, u, hu, g⟩ := r
  have sound := db.sound
  have joins : ug ∈ db.tables.userGroups → u ∈ db.tables.user → hu ∈ db.tables.houseUser →
      g ∈ db.tables.group →
      ((eqValue P.collate (u .user_id) (ug .user_id) = some true ∧
        eqValue P.collate (hu .user_id) (u .user_id) = some true ∧
        eqValue P.collate (g .group_id) (ug .group_id) = some true ∧
        eqLit P.collate (hu .house_id) (idLit (some h)) = some true) ↔
      u .user_id = ug .user_id ∧ hu .user_id = u .user_id ∧
        g .group_id = ug .group_id ∧ hu .house_id = .int h) := by
    intro hug hu' hhu hg
    refine and_congr ?_ (and_congr ?_ (and_congr ?_ ?_))
    · exact int_cells_equal ⟨rfl, rfl⟩ ⟨rfl, rfl⟩ sound.user_typed sound.userGroups_typed hu' hug
    · exact int_cells_equal ⟨rfl, rfl⟩ ⟨rfl, rfl⟩ sound.houseUser_typed sound.user_typed hhu hu'
    · exact int_cells_equal ⟨rfl, rfl⟩ ⟨rfl, rfl⟩ sound.group_typed sound.userGroups_typed hg hug
    · exact int_cell_lit ⟨rfl, rfl⟩ sound.houseUser_typed hhu h
  simp only [houseGroups, List.mem_flatMap, List.mem_map, List.mem_filter, decide_eq_true_eq]
  constructor
  · rintro ⟨_, hug, _, hu', _, hhu, _, ⟨hg, on⟩, ⟨⟩⟩
    exact ⟨⟨hug, hu', hhu, hg⟩, (joins hug hu' hhu hg).mp on⟩
  · rintro ⟨⟨hug, hu', hhu, hg⟩, on⟩
    exact ⟨ug, hug, u, hu', hu, hhu, g, ⟨hg, (joins hug hu' hhu hg).mpr on⟩, rfl⟩

theorem houseGroups_nodup : (houseGroups P.collate (some h) db.tables).Nodup := by
  have sound := db.sound
  have users := (sound.user_key.int_keys ⟨rfl, rfl⟩ sound.user_typed).of_map
  have housed := (sound.houseUser_key.int_keys ⟨rfl, rfl⟩ sound.houseUser_typed).of_map
  have groups := (sound.group_key.int_keys ⟨rfl, rfl⟩ sound.group_typed).of_map
  have memberships := (sound.userGroups_key.int_keys ⟨rfl, rfl⟩ sound.userGroups_typed).of_map
  refine nodup_nested (fun r : GroupListing => r.1) memberships (fun ug _ => ?_) ?_
  · refine nodup_nested (fun r : GroupListing => r.2.1) users (fun u _ => ?_) ?_
    · refine nodup_nested (fun r : GroupListing => r.2.2.1) housed (fun hu _ => ?_) ?_
      · exact (groups.filter _).map fun _ _ same => congrArg (fun r => r.2.2.2) same
      · intro hu r hr
        obtain ⟨g, -, rfl⟩ := List.mem_map.mp hr
        rfl
    · intro u r hr
      obtain ⟨hu, -, hr⟩ := List.mem_flatMap.mp hr
      obtain ⟨g, -, rfl⟩ := List.mem_map.mp hr
      rfl
  · intro ug r hr
    obtain ⟨u, -, hr⟩ := List.mem_flatMap.mp hr
    obtain ⟨hu, -, hr⟩ := List.mem_flatMap.mp hr
    obtain ⟨g, -, rfl⟩ := List.mem_map.mp hr
    rfl

/-- Whoever has a row of a group or of a house is in `tblUSER`. -/
theorem exists_listing {ug : Row UserGroupCol} {hu : Row HouseUserCol}
    (hug : ug ∈ db.tables.userGroups) (hhu : hu ∈ db.tables.houseUser)
    (house : hu .house_id = .int h) (same : hu .user_id = ug .user_id) :
    ∃ u g, (ug, u, hu, g) ∈ houseGroups P.collate (some h) db.tables := by
  have sound := db.sound
  obtain ⟨n, hn⟩ := int_cell (c := UserGroupCol.user_id) rfl rfl sound.userGroups_typed hug
  obtain ⟨m, hm⟩ := int_cell (c := UserGroupCol.group_id) rfl rfl sound.userGroups_typed hug
  obtain null | ⟨u, hu', users⟩ := sound.userGroups_user ug hug
  · rw [hn] at null
    cases null
  obtain null | ⟨g, hg, groups⟩ := sound.userGroups_group ug hug
  · rw [hm] at null
    cases null
  have users := (int_cells_equal ⟨rfl, rfl⟩ ⟨rfl, rfl⟩ sound.userGroups_typed sound.user_typed
    hug hu').mp users
  have groups := (int_cells_equal ⟨rfl, rfl⟩ ⟨rfl, rfl⟩ sound.userGroups_typed sound.group_typed
    hug hg).mp groups
  exact ⟨u, g, mem_houseGroups.mpr
    ⟨⟨hug, hu', hhu, hg⟩, users.symm, same.trans users, groups.symm, house⟩⟩

theorem listed_hasMember {r : GroupListing}
    (hr : r ∈ houseGroups P.collate (some h) db.tables) :
    r.2.2.2 ∈ db.tables.group ∧ HasMember db.tables h r.2.2.2 := by
  obtain ⟨⟨hug, -, hhu, hg⟩, users, housed, groups, house⟩ := mem_houseGroups.mp hr
  exact ⟨hg, r.1, hug, groups.symm, r.2.2.1, hhu, house, housed.trans users⟩

theorem listed_group {r r' : GroupListing}
    (hr : r ∈ houseGroups P.collate (some h) db.tables)
    (hr' : r' ∈ houseGroups P.collate (some h) db.tables)
    (same : r.1 .group_id = r'.1 .group_id) : r.2.2.2 = r'.2.2.2 := by
  obtain ⟨⟨-, -, -, hg⟩, -, -, groups, -⟩ := mem_houseGroups.mp hr
  obtain ⟨⟨-, -, -, hg'⟩, -, -, groups', -⟩ := mem_houseGroups.mp hr'
  exact db.sound.group_key.eq_of_number ⟨rfl, rfl⟩ db.sound.group_typed hg hg'
    (groups.trans (same.trans groups'.symm))

/-- Two rows for one group come from two ways into the house. -/
theorem OneWayIn.listings {r r' : GroupListing} (one : OneWayIn db.tables h)
    (hr : r ∈ houseGroups P.collate (some h) db.tables)
    (hr' : r' ∈ houseGroups P.collate (some h) db.tables) (same : r.2.2.2 = r'.2.2.2) :
    r = r' := by
  obtain ⟨ug, u, hu, g⟩ := r
  obtain ⟨ug', u', hu', g'⟩ := r'
  obtain ⟨⟨hug, hu₁, hhu, -⟩, users, housed, groups, house⟩ := mem_houseGroups.mp hr
  obtain ⟨⟨hug', hu₂, hhu', -⟩, users', housed', groups', house'⟩ := mem_houseGroups.mp hr'
  obtain rfl : g = g' := same
  have lives : LivesIn db.tables h (ug .user_id) := ⟨hu, hhu, house, housed.trans users⟩
  have lives' : LivesIn db.tables h (ug' .user_id) := ⟨hu', hhu', house', housed'.trans users'⟩
  obtain rfl : ug = ug' := one.member ug hug ug' hug' lives lives' (groups.symm.trans groups')
  obtain rfl : hu = hu' := one.row ug hug hu hhu hu' hhu' house (housed.trans users) house'
    (housed'.trans users')
  obtain rfl : u = u' := db.sound.user_key.eq_of_number ⟨rfl, rfl⟩ db.sound.user_typed hu₁ hu₂
    (users.trans users'.symm)
  rfl

/-- The house's groups are listed once each exactly when there is one way into each. -/
theorem listsGroupsOnce_iff : ListsGroupsOnce db.tables h
    (houseGroups P.collate (some h) db.tables) ↔ OneWayIn db.tables h := by
  constructor
  · intro lists
    have unique : ∀ r ∈ houseGroups P.collate (some h) db.tables,
        ∀ r' ∈ houseGroups P.collate (some h) db.tables, r.2.2.2 = r'.2.2.2 → r = r' := by
      intro r hr r' hr' same
      obtain ⟨hg, has⟩ := listed_hasMember hr
      have one := ((countP_eq_one_iff houseGroups_nodup).mp (lists.once _ hg has)).2
      exact one r hr r' hr' (decide_eq_true rfl) (decide_eq_true same.symm)
    constructor
    · intro ug hug ug' hug' ⟨hu, hhu, house, lives⟩ ⟨hu', hhu', house', lives'⟩ groups
      obtain ⟨u, g, hr⟩ := exists_listing hug hhu house lives
      obtain ⟨u', g', hr'⟩ := exists_listing hug' hhu' house' lives'
      have same : g = g' := listed_group hr hr' groups
      exact congrArg Prod.fst (unique _ hr _ hr' same)
    · intro ug hug hu hhu hu' hhu' house lives house' lives'
      obtain ⟨u, g, hr⟩ := exists_listing hug hhu house lives
      obtain ⟨u', g', hr'⟩ := exists_listing hug hhu' house' lives'
      have same : g = g' := listed_group hr hr' rfl
      exact congrArg (fun r => r.2.2.1) (unique _ hr _ hr' same)
  · intro one
    refine ⟨fun g hg has => (countP_eq_one_iff houseGroups_nodup).mpr ⟨?_, ?_⟩,
      fun r hr => listed_hasMember hr⟩
    · obtain ⟨ug, hug, groups, hu, hhu, house, lives⟩ := has
      obtain ⟨u, g', hr⟩ := exists_listing hug hhu house lives
      obtain ⟨⟨-, -, -, hg'⟩, -, -, groups', -⟩ := mem_houseGroups.mp hr
      have same : g' = g := db.sound.group_key.eq_of_number ⟨rfl, rfl⟩ db.sound.group_typed hg' hg
        (groups'.trans groups)
      exact ⟨_, hr, decide_eq_true same⟩
    · intro r hr r' hr' this that
      exact one.listings hr hr' ((of_decide_eq_true this).trans (of_decide_eq_true that).symm)

end Groups

/-- What `getHouseGroups` answers in a state. -/
def GroupList (σ : Config P) (h : Int) (listed : List GroupListing) : Prop :=
  exec P.collate (.getHouseGroups (some h)) σ.world.db = some (listed, σ.world.db)

theorem groupMenu_eq (listed : List GroupListing) :
    groupMenu (houseGroupsJs listed) = listed.map fun r => cellJs (r.2.2.2 .group_id) := by
  rw [houseGroupsJs, groupMenu, List.map_map]
  rfl

/-- In every reachable state and for every house, `getHouseGroups` lists each group of the
house once exactly when there is one way into each; and the menu of a client in that house
offers just what is listed. -/
theorem groups_listed_once_iff {σ : Config P} (reachable : Reachable P σ) (h : Int) :
    ∃ listed, GroupList σ h listed ∧
      (ListsGroupsOnce σ.world.db.tables h listed ↔ OneWayIn σ.world.db.tables h) ∧
      ∀ q u, q.route = .getGroups → σ.world.store q.sid = some u → u.houseID = some h →
        ∃ data, .answered (σ.world.context q) (.json data) (some u) ∈
            (run (server P) [.arrive q, .settle σ.pending.length false] σ).world.log ∧
          groupMenu data = listed.map fun r => cellJs (r.2.2.2 .group_id) := by
  refine ⟨_, rfl, listsGroupsOnce_iff, ?_⟩
  intro q u route user house
  refine ⟨_, ?_, groupMenu_eq (houseGroups P.collate (some h) σ.world.db.tables)⟩
  let c := σ.world.context q
  have single : handler P c = .issue (.getHouseGroups (some h)) (thenRun fun response =>
      Prog.send (.json (houseGroupsJs response)) (some u)) .done := by
    have session : c.user = some u := user
    have asked : c.req.route = .getGroups := route
    rw [← house]
    simp only [handler, OneRoof.route, asked, getGroups, withUser, session, attempt]
    rfl
  exact reachable.fresh.serve_answered single rfl

/-- Ben signs up, joins Ann's house, and Ann makes a group of the two. -/
def annAndBen : List (Label samplePlatform) :=
  annMoves ++ [.arrive { sid := 1, route := .signup, body := .obj [("email", .str "ben@x"),
      ("password", .str "pw"), ("confirmPass", .str "pw"), ("displayName", .str "Ben")] },
    .settle 0 false, .settle 0 false, .settle 0 false, .settle 0 false, .settle 0 false,
    .arrive { joinZeros with sid := 1 }, .settle 0 false, .settle 0 false,
    .arrive { sid := 0, route := .createGroup, body := .obj [("group_name", .str "cooks"),
      ("group_descr", .str "they cook"), ("group_members", .arr [.obj [("user_id", .num 1)],
        .obj [("user_id", .num 2)]])] }, .settle 0 false, .settle 0 false]

/-- Ann alone is in the group so far. -/
theorem groups_listed_sample : ∃ listed,
    GroupList (run (server samplePlatform) annAndBen (startUp samplePlatform)) 1 listed ∧
    ListsGroupsOnce (run (server samplePlatform) annAndBen
      (startUp samplePlatform)).world.db.tables 1 listed := by
  obtain ⟨listed, lists, once, -⟩ := groups_listed_once_iff ⟨annAndBen, by decide, rfl⟩ 1
  refine ⟨listed, lists, once.mpr ⟨?_, ?_⟩⟩
  · decide +kernel
  · decide +kernel

/-- Then Ben is in it too, and it shows twice. -/
theorem group_listed_twice :
    Reachable samplePlatform
      (run (server samplePlatform) (annAndBen ++ [.settle 0 false]) (startUp samplePlatform)) ∧
    ∀ listed, GroupList (run (server samplePlatform) (annAndBen ++ [.settle 0 false])
      (startUp samplePlatform)) 1 listed →
    ¬ ListsGroupsOnce (run (server samplePlatform) (annAndBen ++ [.settle 0 false])
      (startUp samplePlatform)).world.db.tables 1 listed := by
  refine ⟨⟨_, by decide, rfl⟩, ?_⟩
  rintro listed ⟨⟩ once
  exact absurd (listsGroupsOnce_iff.mp once).member (by decide +kernel)

end OneRoof
