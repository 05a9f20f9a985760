import OneRoof.Housing

/-!
# The register of groups

The groups are two lists that only grow: the groups that were made, and who was put into which
of them. What the menu of a house lists is what these lists and the register of residences
held when it was read: a group shows once for each way from a placement of a user in it to a
residence of the user in the house.
-/

namespace OneRoof

open Sql Async Async.Prog Prog

variable {P : Platform}

/-- A group as it is stored. -/
structure Circle where
  number : Nat
  name : Value
  descr : Value

/-- A user who was put into a group, and the number of the entry. -/
structure Placement where
  entry : Nat
  group : Value
  user : Value

/-- The groups, and who was put into them. -/
structure GroupBook where
  circles : List Circle
  placements : List Placement

/-- The row that shows a group. -/
def Circle.row (g : Circle) : Row GroupCol
  | .group_id => .int g.number
  | .group_name => g.name
  | .group_descr => g.descr

/-- The row that shows a placement. -/
def Placement.row (p : Placement) : Row UserGroupCol
  | .user_group_id => .int p.entry
  | .user_id => p.user
  | .group_id => p.group

/-- The group that a completed statement makes. -/
def Event.circle : Event → Option Circle
  | .completed _ (.createGroup groupName groupDescr) packet =>
    some ⟨packet.insertId, store GroupCol.group_name groupName.lit.value,
      store GroupCol.group_descr groupDescr.lit.value⟩
  | _ => none

/-- The placement that a completed statement enters. -/
def Event.placement : Event → Option Placement
  | .completed _ (.addUserToGroup group user) packet =>
    some ⟨packet.insertId, store UserGroupCol.group_id group.lit.value,
      store UserGroupCol.user_id user.lit.value⟩
  | _ => none

/-- What a completed statement makes of the groups. -/
def grouping (c : Ctx) (s : Stmt) (r : s.Reply) (book : GroupBook) : GroupBook where
  circles := book.circles ++ (Event.completed c s r).circle.toList
  placements := book.placements ++ (Event.completed c s r).placement.toList

/-- The groups and placements of a log. -/
def groupBook (log : List Event) : GroupBook :=
  ⟨log.filterMap Event.circle, log.filterMap Event.placement⟩

/-- The tables show the groups. -/
structure ShowsGroups (db : Database P.collate) (book : GroupBook) : Prop where
  circles : db.tables.group = book.circles.map Circle.row
  placements : db.tables.userGroups = book.placements.map Placement.row

theorem groupBook_eq (log : List Event) : replay grouping (groupBook []) log = groupBook log := by
  have single : ∀ {α : Type} (f : Event → Option α) (e : Event),
      [e].filterMap f = (f e).toList := by
    intro α f e
    rw [List.filterMap_cons]
    cases f e <;> rfl
  induction log using List.reverseRecOn with
  | nil => rfl
  | append_singleton log e ih =>
    rw [replay_append, ih, groupBook, groupBook, List.filterMap_append, List.filterMap_append,
      single, single]
    cases e with
    | completed c s r => rfl
    | _ => exact congrArg₂ GroupBook.mk (List.append_nil _).symm (List.append_nil _).symm

/-- The lists of members hold users: what stands for the id of a member is a scalar. -/
structure Request.NamesMembers (q : Request) : Prop where
  plain : q.Plain
  members : q.ListsScalars "group_members" "user_id"

/-- The values of a statement about groups are scalars. -/
def Stmt.groupsScalar : Stmt → Bool
  | .createGroup groupName groupDescr => groupName.isScalar && groupDescr.isScalar
  | .addUserToGroup group user => group.isScalar && user.isScalar
  | _ => true

section Issues

variable {c : Ctx} {s : Stmt}

theorem createGroup_scalars (names : c.req.NamesMembers) :
    (createGroup c.req).Issues fun s => s.groupsScalar = true := by
  refine query_issues ?_ <| thenRun_issues fun rows => attempt_issues fun list looped =>
    startEach_issues_mem (fun m mem s hs => ?_) done_issues
  · exact Bool.and_eq_true_iff.mpr ⟨names.plain.body "group_name" (by decide),
      names.plain.body "group_descr" (by decide)⟩
  · obtain ⟨user, given, hs⟩ := Option.bind_eq_some_iff.mp hs
    obtain ⟨text, -, hs⟩ := Option.bind_eq_some_iff.mp hs
    cases hs
    exact Bool.and_eq_true_iff.mpr ⟨rfl, names.members list looped m mem user given⟩

theorem Sends.groupsScalar (sends : Sends P c s) (plain : c.req.Plain)
    (other : c.req.route ≠ .createGroup) : s.groupsScalar = true := by
  cases sends with
  | select reads => cases s <;> first | rfl | cases reads
  | createGroup route => exact absurd route other
  | addMember route => exact absurd route other
  | @joinGroup u =>
    refine Bool.and_eq_true_iff.mpr ⟨plain.body "groupId" (by decide), ?_⟩
    cases u.user_id <;> rfl
  | _ => rfl

theorem handler_groupsScalar (c : Ctx) (names : c.req.NamesMembers) :
    (handler P c).Issues fun s => s.groupsScalar = true := by
  by_cases route : c.req.route = .createGroup
  · refine Issues.recover ?_ (send_issues _ _)
    rw [OneRoof.route, route]
    exact createGroup_scalars names
  · exact (handler_issues P c).mono fun s sends => sends.groupsScalar names.plain route

end Issues

section Rows

variable {collate : String → String} {db db' : Database collate}

theorem createGroup_circle {groupName groupDescr : JsVal} {r : Packet}
    (scalar : (Stmt.createGroup groupName groupDescr).groupsScalar = true)
    (he : exec collate (.createGroup groupName groupDescr) db = some (r, db')) :
    db'.tables.userGroups = db.tables.userGroups ∧ db'.tables.group = db.tables.group ++
      [Circle.row ⟨r.insertId, store GroupCol.group_name groupName.lit.value,
        store GroupCol.group_descr groupDescr.lit.value⟩] := by
  obtain ⟨named, described⟩ := Bool.and_eq_true_iff.mp scalar
  obtain ⟨row, filled, he⟩ := Option.bind_eq_some_iff.mp he
  obtain ⟨tables, -, rfl⟩ := bind_commit he
  rw [tables]
  refine ⟨rfl, congrArg (fun row => _ ++ [row]) (funext fun c => ?_)⟩
  cases c with
  | group_id => exact newRow_key filled (by simp)
  | group_name => exact newRow_cell filled (by simp) (by simp) named
  | group_descr => exact newRow_cell filled (by simp) (by simp) described

theorem addUserToGroup_placement {group user : JsVal} {r : Packet}
    (scalar : (Stmt.addUserToGroup group user).groupsScalar = true)
    (he : exec collate (.addUserToGroup group user) db = some (r, db')) :
    db'.tables.group = db.tables.group ∧ db'.tables.userGroups = db.tables.userGroups ++
      [Placement.row ⟨r.insertId, store UserGroupCol.group_id group.lit.value,
        store UserGroupCol.user_id user.lit.value⟩] := by
  obtain ⟨chosen, named⟩ := Bool.and_eq_true_iff.mp scalar
  obtain ⟨row, filled, he⟩ := Option.bind_eq_some_iff.mp he
  obtain ⟨tables, -, rfl⟩ := bind_commit he
  rw [tables]
  refine ⟨rfl, congrArg (fun row => _ ++ [row]) (funext fun c => ?_)⟩
  cases c with
  | user_group_id => exact newRow_key filled (by simp)
  | group_id => exact newRow_cell filled (by simp) (by simp) chosen
  | user_id => exact newRow_cell filled (by simp) (by simp) named

/-- Statements that are not about groups leave their tables. -/
theorem groups_same {s : Stmt} {r : s.Reply} (he : exec collate s db = some (r, db'))
    (made : ∀ groupName groupDescr, s ≠ .createGroup groupName groupDescr)
    (put : ∀ group user, s ≠ .addUserToGroup group user) :
    db'.tables.group = db.tables.group ∧ db'.tables.userGroups = db.tables.userGroups := by
  have effect := exec_effect he
  generalize db'.tables = t at effect ⊢
  generalize db'.next = n at effect
  cases effect with
  | createGroup => exact absurd rfl (made _ _)
  | addUserToGroup => exact absurd rfl (put _ _)
  | _ => exact ⟨rfl, rfl⟩

end Rows

theorem groups_refine : Refines P Request.NamesMembers (fun _ s => s.groupsScalar = true)
    grouping (groupBook []) ShowsGroups where
  start := ⟨rfl, rfl⟩
  issues := handler_groupsScalar
  preserve := by
    intro c s r db db' book scalar he shown
    cases s with
    | createGroup groupName groupDescr =>
      obtain ⟨same, grown⟩ := createGroup_circle scalar he
      refine ⟨?_, ?_⟩
      · rw [grown, shown.circles, grouping, List.map_append]
        rfl
      · rw [same, shown.placements]
        exact congrArg _ (List.append_nil _).symm
    | addUserToGroup group user =>
      obtain ⟨same, grown⟩ := addUserToGroup_placement scalar he
      refine ⟨?_, ?_⟩
      · rw [same, shown.circles]
        exact congrArg _ (List.append_nil _).symm
      · rw [grown, shown.placements, grouping, List.map_append]
        rfl
    | _ =>
      obtain ⟨groups, placements⟩ := groups_same he (by simp) (by simp)
      refine ⟨?_, ?_⟩
      · rw [groups, shown.circles]
        exact congrArg _ (List.append_nil _).symm
      · rw [placements, shown.placements]
        exact congrArg _ (List.append_nil _).symm

section Menus

/-- What the menu of a house has to list: a group with its name and one of its members, for
each way from a placement in the group to a residence in the house. -/
def houseMenu (register : List Residence) (book : GroupBook) (h : Int) :
    List (Nat × Value × Int) :=
  book.placements.flatMap fun p => register.flatMap fun e => (book.circles.filter fun g =>
    p.user = .int e.user ∧ p.group = .int g.number ∧ e.house = h).map fun g =>
      (g.number, g.name, e.user)

/-- What has to be listed of the groups of one user. -/
def groupsOf (book : GroupBook) (n : Int) : List (Nat × Value) :=
  book.placements.flatMap fun p => (book.circles.filter fun g =>
    p.group = .int g.number ∧ p.user = .int n).map fun g => (g.number, g.name)

/-- The group that a row of a menu is about, its name, and who is in it. -/
def menuCells (r : GroupListing) : Value × Value × Value :=
  (r.2.2.2 .group_id, r.2.2.2 .group_name, r.2.1 .user_id)

def groupCells (r : Row UserGroupCol × Row GroupCol) : Value × Value :=
  (r.2 .group_id, r.2 .group_name)

variable {db : Database P.collate} {register : List Residence} {book : GroupBook}

theorem placed_user {ug : Row UserGroupCol} (mem : ug ∈ db.tables.userGroups) :
    ∃ u ∈ db.tables.user, u .user_id = ug .user_id := by
  obtain ⟨n, number⟩ := int_cell (c := UserGroupCol.user_id) rfl rfl db.sound.userGroups_typed mem
  rcases db.sound.userGroups_user ug mem with null | ⟨u, known, same⟩
  · rw [number] at null
    cases null
  · exact ⟨u, known, ((int_cells_equal ⟨rfl, rfl⟩ ⟨rfl, rfl⟩ db.sound.userGroups_typed
      db.sound.user_typed mem known).mp same).symm⟩

/-- The conditions of the join, on rows of the tables. -/
theorem joined_iff {ug : Row UserGroupCol} {u : Row UserCol} {hu : Row HouseUserCol}
    {g : Row GroupCol} (placed : ug ∈ db.tables.userGroups) (known : u ∈ db.tables.user)
    (lives : hu ∈ db.tables.houseUser) (made : g ∈ db.tables.group) (h : Int) :
    (eqValue P.collate (u .user_id) (ug .user_id) = some true ∧
      eqValue P.collate (hu .user_id) (u .user_id) = some true ∧
      eqValue P.collate (g .group_id) (ug .group_id) = some true ∧
      eqLit P.collate (hu .house_id) (idLit (some h)) = some true) ↔
    u .user_id = ug .user_id ∧ hu .user_id = u .user_id ∧ g .group_id = ug .group_id ∧
      hu .house_id = .int h := by
  have sound := db.sound
  refine and_congr ?_ (and_congr ?_ (and_congr ?_ ?_))
  · exact int_cells_equal ⟨rfl, rfl⟩ ⟨rfl, rfl⟩ sound.user_typed sound.userGroups_typed known
      placed
  · exact int_cells_equal ⟨rfl, rfl⟩ ⟨rfl, rfl⟩ sound.houseUser_typed sound.user_typed lives known
  · exact int_cells_equal ⟨rfl, rfl⟩ ⟨rfl, rfl⟩ sound.group_typed sound.userGroups_typed made
      placed
  · exact int_cell_lit ⟨rfl, rfl⟩ sound.houseUser_typed lives h

theorem houseGroups_menu (housed : ShowsHousing db register) (shown : ShowsGroups db book)
    (h : Int) : (houseGroups P.collate (some h) db.tables).map menuCells =
      (houseMenu register book h).map fun x => (.int x.1, x.2.1, .int x.2.2) := by
  have sound := db.sound
  have users := (sound.user_key.int_keys ⟨rfl, rfl⟩ sound.user_typed).of_map
  simp only [houseGroups, houseMenu, List.map_flatMap, filter_map_eq_flatMap]
  refine flatMap_shown ((List.map_id _).trans shown.placements) fun ug placed p row => ?_
  obtain ⟨u, known, user⟩ := placed_user placed
  rw [flatMap_only users known]
  · refine flatMap_shown ((List.map_id _).trans housed) fun hu lives e residence => ?_
    refine flatMap_shown ((List.map_id _).trans shown.circles) fun g made circle group => ?_
    obtain rfl : ug = p.row := row
    obtain rfl : hu = e.row := residence
    obtain rfl : g = circle.row := group
    have placed' : u .user_id = p.user := user
    have joined : (u .user_id = p.row .user_id ∧ e.row .user_id = u .user_id ∧
        circle.row .group_id = p.row .group_id ∧ e.row .house_id = .int h) ↔
        p.user = .int e.user ∧ p.group = .int circle.number ∧ e.house = h := by
      simp [placed', Placement.row, Residence.row, Circle.row, eq_comm]
    have member : p.user = .int e.user → menuCells (p.row, u, e.row, circle.row) =
        (.int circle.number, circle.name, .int e.user) := fun same =>
      Prod.ext rfl (Prod.ext rfl (placed'.trans same))
    simp only [joined_iff placed known lives made h, joined, decide_eq_true_eq]
    split
    · rename_i together
      rw [List.map_singleton, List.map_singleton, member together.1]
    · rfl
  · intro v mem other
    refine List.flatMap_eq_nil_iff.mpr fun hu lives => List.flatMap_eq_nil_iff.mpr fun g made => ?_
    have apart : v .user_id ≠ ug .user_id := fun same => other
      (sound.user_key.eq_of_number ⟨rfl, rfl⟩ sound.user_typed mem known (same.trans user.symm))
    simp [joined_iff placed mem lives made h, apart]

theorem userGroups_menu (shown : ShowsGroups db book) (n : Int) :
    (userGroups P.collate (some n) db.tables).map groupCells =
      (groupsOf book n).map fun x => (.int x.1, x.2) := by
  have sound := db.sound
  simp only [userGroups, groupsOf, List.map_flatMap, filter_map_eq_flatMap]
  refine flatMap_shown ((List.map_id _).trans shown.placements) fun ug placed p row => ?_
  refine flatMap_shown ((List.map_id _).trans shown.circles) fun g made circle group => ?_
  have joined : (eqValue P.collate (ug .group_id) (g .group_id) = some true ∧
      eqLit P.collate (ug .user_id) (idLit (some n)) = some true) ↔
      ug .group_id = g .group_id ∧ ug .user_id = .int n :=
    and_congr (int_cells_equal ⟨rfl, rfl⟩ ⟨rfl, rfl⟩ sound.userGroups_typed sound.group_typed
      placed made) (int_cell_lit ⟨rfl, rfl⟩ sound.userGroups_typed placed n)
  obtain rfl : ug = p.row := row
  obtain rfl : g = circle.row := group
  simp only [joined, decide_eq_true_eq]
  change List.map _ (if p.group = .int circle.number ∧ p.user = .int n then _ else _) = _
  split <;> rfl

theorem mem_houseMenu {h : Int} {k : Nat} {name : Value} {n : Int} :
    (k, name, n) ∈ houseMenu register book h ↔
      (∃ g ∈ book.circles, g.number = k ∧ g.name = name) ∧
      (∃ p ∈ book.placements, p.group = .int k ∧ p.user = .int n) ∧
      ∃ e ∈ register, e.house = h ∧ e.user = n := by
  simp only [houseMenu, List.mem_flatMap, List.mem_map, List.mem_filter, decide_eq_true_eq,
    Prod.mk.injEq]
  constructor
  · rintro ⟨p, placed, e, lives, g, ⟨made, user, group, house⟩, rfl, rfl, rfl⟩
    exact ⟨⟨g, made, rfl, rfl⟩, ⟨p, placed, group, user⟩, e, lives, house, rfl⟩
  · rintro ⟨⟨g, made, rfl, rfl⟩, ⟨p, placed, group, user⟩, e, lives, house, rfl⟩
    exact ⟨p, placed, e, lives, g, ⟨made, user, group, house⟩, rfl, rfl, rfl⟩

end Menus

/-- What a look-up of groups has to answer while the registers are these. -/
def ReadsGroups (register : List Residence) (book : GroupBook) : (s : Stmt) → s.Reply → Prop
  | .getHouseGroups (some h), rows => rows.map menuCells =
    (houseMenu register book h).map fun x => (.int x.1, x.2.1, .int x.2.2)
  | .getHouseGroups none, rows => rows = []
  | .getUserGroups (some n), rows => rows.map groupCells =
    (groupsOf book n).map fun x => (.int x.1, x.2)
  | .getUserGroups none, rows => rows = []
  | _, _ => True

/-- In front of this place of the log the group was made, the user was put into it, and the
user lives in the house. -/
structure ListedIn (front : List Event) (h : Int) (k : Nat) (name : Value) (n : Int) : Prop where
  made : ∃ e ∈ front, ∃ g ∈ e.circle, g.number = k ∧ g.name = name
  placed : ∃ e ∈ front, ∃ p ∈ e.placement, p.group = .int k ∧ p.user = .int n
  lives : ∃ e ∈ residences front, e.house = h ∧ e.user = n

theorem listedIn_iff {front : List Event} {h : Int} {k : Nat} {name : Value} {n : Int} :
    (k, name, n) ∈ houseMenu (residences front) (groupBook front) h ↔
      ListedIn front h k name n := by
  have occurs : ∀ {α : Type} (f : Event → Option α) (holds : α → Prop),
      (∃ a ∈ front.filterMap f, holds a) ↔ ∃ e ∈ front, ∃ a ∈ f e, holds a := by
    intro α f holds
    simp only [List.mem_filterMap, Option.mem_def]
    constructor
    · rintro ⟨a, ⟨e, mem, is⟩, holds⟩
      exact ⟨e, mem, a, is, holds⟩
    · rintro ⟨e, mem, a, is, holds⟩
      exact ⟨a, ⟨e, mem, is⟩, holds⟩
  rw [mem_houseMenu, groupBook, occurs, occurs]
  exact ⟨fun ⟨made, placed, lives⟩ => ⟨made, placed, lives⟩,
    fun listed => ⟨listed.made, listed.placed, listed.lives⟩⟩

/-- The tables show the residences and the groups of each log. -/
theorem registers_refine : Refines P Request.NamesMembers (fun _ s => s.groupsScalar = true)
    (fun c s r a => (housing c s r a.1, grouping c s r a.2)) ([], groupBook [])
    (fun db a => ShowsHousing db a.1 ∧ ShowsGroups db a.2) :=
  (housing_refines.narrow handler_groupsScalar fun _ _ _ => trivial).both groups_refine

/-- Without a house there is no menu. -/
theorem houseGroups_none (t : Tables) : houseGroups P.collate none t = [] := by
  simp [houseGroups, idLit, eqLit_null]

theorem userGroups_none (t : Tables) : userGroups P.collate none t = [] := by
  simp [userGroups, idLit, eqLit_null]

/-- At a look-up of groups the tables show the registers of the log before it. -/
theorem groups_answered {ls : List (Label P)}
    (names : ∀ l ∈ ls, Admissible P Request.NamesMembers l) {front rest : List Event} {c : Ctx}
    {s : Stmt} {r : s.Reply}
    (logged : (run (server P) ls (startUp P)).world.log = front ++ .completed c s r :: rest) :
    ReadsGroups (residences front) (groupBook front) s r := by
  obtain ⟨-, db, db', shown, he⟩ := registers_refine.answered names logged
  rw [replay_both, groupBook_eq] at shown
  cases s with
  | getHouseGroups houseID =>
    cases houseID with
    | none =>
      cases he
      exact houseGroups_none db.tables
    | some h =>
      cases he
      exact houseGroups_menu shown.1 shown.2 h
  | getUserGroups id =>
    cases id with
    | none =>
      cases he
      exact userGroups_none db.tables
    | some n =>
      cases he
      exact userGroups_menu shown.2 n
  | _ => trivial

/-- A check that is enough for a request to name its members. -/
def Request.namesMembers (q : Request) : Bool :=
  q.plainly && decide (q.ListsScalars "group_members" "user_id")

theorem namesMembers_of_check {q : Request} (names : q.namesMembers = true) : q.NamesMembers := by
  obtain ⟨plainly, members⟩ := Bool.and_eq_true_iff.mp names
  exact ⟨Request.plain_of_plainly plainly, of_decide_eq_true members⟩

/-- Ann reads the groups of her house when Ben is in one with her. -/
def annReadsGroups : List (Label samplePlatform) :=
  annAndBen ++ [.settle 0 false, .arrive { sid := 0, route := .house }, .settle 0 false,
    .arrive { sid := 0, route := .getGroups }, .settle 0 false]

theorem annReadsGroups_names : ∀ l ∈ annReadsGroups,
    Admissible samplePlatform Request.NamesMembers l :=
  admissible_of_passes (fun _ => namesMembers_of_check) (by decide +kernel)

def Event.readsGroups (h : Int) : Event → Bool
  | .completed _ (.getHouseGroups (some k)) _ => k = h
  | _ => false

end OneRoof
