import Mathlib.Data.List.Dedup
import Mathlib.Data.List.DropRight
import OneRoof.Assignees
import OneRoof.Page

/-!
# The members of a group

The form for a new group collects housemates, `createGroup` sends what has been collected,
and the server adds a row for each of them once the group is there. Joining adds a row more.
Nothing empties the list of the form and nothing looks for a row that is there already, so
a group gets the members of the earlier ones, and a user as many rows as he was selected and
as often as he joined.
-/

namespace OneRoof

open Sql Async
open Feed (Click)

variable {P : Platform}

/-- The members of a group, one for each row. -/
def memberIds (t : Tables) (group : Int) : List Int := t.userGroups.filterMap fun r =>
  if r .group_id = .int group then cellInt (r .user_id) else none

/-- The group a chosen value stands for. -/
def groupNamed (v : JsVal) : Option Int := match v.lit with
  | .null => none
  | l => cellInt (store UserGroupCol.group_id l.value)

def userNamed : JsVal → Option Int
  | .num n => some n
  | _ => none

/-- Who is put into a group by a statement. -/
def Stmt.puts (group : Int) : Stmt → Option Int
  | .addUserToGroup g user => if groupNamed g = some group then userNamed user else none
  | _ => none

namespace Feed

/-- What was selected for a group. -/
def selected (clicks : List Click) : List JsVal := clicks.filterMap fun m => match m with
  | .addAssigneeToGroup temp => some temp
  | _ => none

def Click.creates : Click → Bool
  | .createGroup => true
  | _ => false

/-- The clicks up to the last `createGroup`. -/
def earlier (clicks : List Click) : List Click := clicks.rdropWhile fun m => !m.creates

/-- The clicks behind the last `createGroup`. -/
def since (clicks : List Click) : List Click := clicks.rtakeWhile fun m => !m.creates

def joinClick : JsVal × List JsVal → Click → JsVal × List JsVal
  | (_, joined), .chooseGroup v => (v, joined)
  | (chosen, joined), .joinGroup => (.null, joined ++ [chosen])
  | s, _ => s

/-- What is chosen in the form for joining, and what was joined. -/
def joins (clicks : List Click) : JsVal × List JsVal := clicks.foldl joinClick (.undefined, [])

/-- The users of a list of housemates. -/
def users (housemates : List JsVal) : List Int :=
  housemates.filterMap fun v => userNamed (v.get "user_id")

theorem selected_split (clicks : List Click) :
    selected (earlier clicks) ++ selected (since clicks) = selected clicks := by
  rw [selected, selected, ← List.filterMap_append, earlier, since, List.rdropWhile,
    List.rtakeWhile, ← List.reverse_append, List.takeWhile_append_dropWhile, List.reverse_reverse]
  rfl

end Feed

/-- The page of one client, and what the users of the other clients join. -/
structure Household (P : Platform) where
  page : Page P
  others : List (JsVal × Option Int) := []

namespace Household

open Feed

inductive Move where
  | page (m : Page.Move)
  | join (q : Request)

/-- A request of another client that arrives. -/
def join (q : Request) (g : Household P) : Household P where
  page := { g.page with backend := step (server P) (.arrive q) g.page.backend }
  others := g.others ++
    [(q.body.get "groupId", (g.page.backend.world.store q.sid).bind SessionUser.user_id)]

def move (sid : Nat) : Move → Household P → Household P
  | .page m, g => { g with page := g.page.move sid m }
  | .join q, g => g.join q

def run (sid : Nat) (ms : List Move) (g : Household P) : Household P := Traces.run (move sid) ms g

/-- What the form of a group and the form for joining allow. -/
def Move.Grouping (housemates : List (Row UserCol)) (store : Nat → Option SessionUser) :
    Move → Prop
  | .page (.click (.addAssigneeToGroup temp)) => ∃ u ∈ housemates, temp = rowJs u
  | .page (.click (.chooseGroup v)) => v.isScalar = true
  | .page (.click .createGroup) => True
  | .page (.click .joinGroup) => True
  | .page (.click (.typeGroup _ _)) => True
  | .page (.click _) => False
  | .page _ => True
  | .join q => q.route = .joinGroup ∧ (q.body.get "groupId").isScalar = true ∧
      (store q.sid).isSome = true

/-- A statement that settles is completed. -/
def Succeeds (g : Household P) : Move → Prop
  | .page (.serve i lost) => lost = false ∧ ∀ q ∈ g.page.backend.pending[i]?,
      (exec P.collate q.stmt g.page.backend.world.db).isSome = true
  | _ => True

instance (g : Household P) : (m : Move) → Decidable (g.Succeeds m)
  | .page (.serve _ lost) => inferInstanceAs (Decidable (lost = false ∧ ∀ q ∈ _, _))
  | .page (.click _) => isTrue trivial
  | .page (.deliver _ _) => isTrue trivial
  | .page (.receive _) => isTrue trivial
  | .join _ => isTrue trivial

end Household

/-- A group that was made: the request it was made for, and its number. -/
def Event.made : Event → Option (Ctx × Nat)
  | .completed c (.createGroup _ _) r => some (c, Packet.insertId r)
  | _ => none

/-- The groups that were made. -/
def World.made (w : World P) : List (Ctx × Nat) := w.log.filterMap Event.made

namespace Household

open Feed

/-- Who joins a group; the client's own user is given. -/
def joined (user : Option Int) (g : Household P) (group : Int) : List Int :=
  ((joins g.page.clicks).2.map (·, user) ++ g.others).filterMap fun x =>
    if groupNamed x.1 = some group then x.2 else none

/-- The groups that the page has made, each with the click that made it. -/
def created (g : Household P) : List (Nat × Nat) := g.page.served.flatMap fun s =>
  g.page.backend.world.made.filterMap fun x => if x.1.rid = s.rid then some (s.tag, x.2) else none

/-- Who is meant to be in the group that a click has made. -/
def wanted (user : Option Int) (g : Household P) (tag : Nat) (group : Int) : List Int :=
  users (selected (since (g.page.clicks.take tag))) ++ g.joined user group

/-- A group has one row for each user who is meant to be in it. -/
def Matched (user : Option Int) (g : Household P) : Prop := ∀ x ∈ g.created,
  (memberIds g.page.backend.world.db.tables x.2).Perm (g.wanted user x.1 x.2).dedup

/-- Nothing was selected before the group in front of it was made, and nobody is meant twice. -/
def Separate (user : Option Int) (g : Household P) : Prop := ∀ x ∈ g.created,
  selected (earlier (g.page.clicks.take x.1)) = [] ∧ (g.wanted user x.1 x.2).Nodup

instance (user : Option Int) (g : Household P) : Decidable (g.Matched user) :=
  inferInstanceAs (Decidable (∀ x ∈ g.created, List.Perm _ _))

end Household

section Statements

variable {collate : String → String} {db db' : Database collate}

/-- A value that is stored as it is in the column of the users, or refused. -/
def JsVal.IsUser (v : JsVal) : Prop := v = .undefined ∨ ∃ n, v = .num n ∧ clip n = n

/-- Adding a user puts the one who is named into the group that is named. -/
theorem addUserToGroup_members {g v : JsVal} {r : Packet} (chosen : g.isScalar = true)
    (user : v.IsUser) (completes : exec collate (.addUserToGroup g v) db = some (r, db')) :
    ∃ row, db'.tables = { db.tables with userGroups := db.tables.userGroups ++ [row] } ∧
      ∀ group, memberIds db'.tables group =
        memberIds db.tables group ++ (Stmt.puts group (.addUserToGroup g v)).toList := by
  obtain ⟨row, filled, commits⟩ := Option.bind_eq_some_iff.mp completes
  have tables := (bind_commit commits).1
  refine ⟨row, tables, fun group => ?_⟩
  have named : cellInt (row .group_id) = groupNamed g := by
    have given := newRow_given filled (c := .group_id) List.mem_cons_self chosen rfl
    rw [newRow_cell filled (by simp) List.mem_cons_self chosen, groupNamed]
    split
    · contradiction
    · rfl
  obtain ⟨n, rfl, range⟩ : ∃ n, v = .num n ∧ clip n = n := by
    rcases user with rfl | number
    · have given := newRow_given filled (c := .user_id) (v := .undefined) (by simp) rfl rfl
      exact absurd rfl given
    · exact number
  have cell : row .user_id = .int n := by
    rw [newRow_cell filled (c := .user_id) (v := .num n) (by simp) (by simp) rfl]
    exact congrArg Value.int range
  have equal : row .group_id = .int group ↔ groupNamed g = some group := by
    rw [← named]
    cases row .group_id <;> simp [cellInt]
  rw [memberIds, tables, List.filterMap_append, memberIds]
  by_cases here : groupNamed g = some group
  · simp [equal, cell, Stmt.puts, userNamed, cellInt, here]
  · simp [equal, Stmt.puts, here]

/-- A new group has a number of its own. -/
theorem createGroup_made {name descr : JsVal} {r : Packet}
    (completes : exec collate (.createGroup name descr) db = some (r, db')) :
    ∃ row, db'.tables = { db.tables with group := db.tables.group ++ [row] } ∧
      row .group_id = .int r.insertId ∧ clip r.insertId = r.insertId := by
  obtain ⟨row, filled, commits⟩ := Option.bind_eq_some_iff.mp completes
  obtain ⟨tables, -, packet⟩ := bind_commit commits
  have key : row .group_id = .int r.insertId := by
    rw [← packet]
    exact newRow_key filled (by simp)
  refine ⟨row, tables, key, ?_⟩
  have mem : row ∈ db'.tables.group := by
    rw [tables]
    exact List.mem_append_right _ (List.mem_singleton_self _)
  exact clip_cell rfl db'.sound.group_typed mem key

end Statements

section Requests

variable {σ : Config P}

/-- A user on the way into a group. -/
def enrolling (c : Ctx) (g v : JsVal) : Pending Stmt Stmt.Reply Act Ctx :=
  ⟨c, .addUserToGroup g v, fun _ => .done⟩

theorem arrive_joinGroup (σ : Config P) {q : Request} {u : SessionUser}
    (route : q.route = .joinGroup) (signedIn : σ.world.store q.sid = some u) :
    step (server P) (.arrive q) σ = ⟨σ.world.next, σ.pending ++
      [enrolling (σ.world.context q) (q.body.get "groupId") (.ofInt u.user_id)]⟩ := by
  have handled : handler P (σ.world.context q) =
      .issue (.addUserToGroup (q.body.get "groupId") (.ofInt u.user_id)) (fun _ => .done)
        .done := by
    simp only [handler, OneRoof.route, World.context, route, joinGroup, withUser, signedIn]
    rfl
  rw [arrive_eq, handled]
  rfl

theorem arrive_createGroup (σ : Config P) {q : Request} (route : q.route = .createGroup) :
    ∃ s k, createGroup q = .issue s k .done ∧ step (server P) (.arrive q) σ =
      ⟨σ.world.next, σ.pending ++ [⟨σ.world.context q, s, k⟩]⟩ := by
  refine ⟨_, _, rfl, ?_⟩
  have handled : handler P (σ.world.context q) = (createGroup q).recover
      (Prog.send (.status 500 "Internal Server Error") (σ.world.context q).user) := by
    simp only [handler, OneRoof.route, World.context, route]
  rw [arrive_eq, handled]
  rfl

/-- The loop of the callback starts a statement for each member. -/
theorem enter_members (c : Ctx) (id : Nat) {members : List JsVal}
    (known : ∀ v ∈ members, ∃ n, v.prop "user_id" = some (.num n)) (σ : Config P) :
    enter (server P) c (Prog.startEach (fun m => do
        let user_id ← m.prop "user_id"
        let _ ← user_id.toStr
        return .addUserToGroup (.num id) user_id) false .done members) σ =
      ⟨σ.world, σ.pending ++ members.map fun v => enrolling c (.num id) (v.get "user_id")⟩ := by
  induction members generalizing σ with
  | nil => simp [Prog.startEach, enter]
  | cons v members ih =>
    obtain ⟨n, named⟩ := known v List.mem_cons_self
    have own : v.get "user_id" = .num n := by
      cases v <;> first | exact Option.some.inj named | cases named
    have later := ih (fun w mem => known w (List.mem_cons_of_mem v mem))
      ⟨σ.world, σ.pending ++ [enrolling c (.num id) (.num n)]⟩
    rw [List.append_assoc] at later
    simp only [Prog.startEach, named, Option.bind_eq_bind, Option.bind_some, JsVal.toStr,
      Prog.attempt, List.map_cons, own]
    exact later

/-- A group that has been made gets its members. -/
theorem settle_createGroup {i : Nat} {c : Ctx} {s : Stmt} {k : Option s.Reply → Prog}
    {members : List JsVal} (program : createGroup c.req = .issue s k .done)
    (waits : σ.pending[i]? = some ⟨c, s, k⟩)
    (given : c.req.body.get "group_members" = .arr members)
    (known : ∀ v ∈ members, ∃ n, v.prop "user_id" = some (.num n))
    (succeeds : (exec P.collate s σ.world.db).isSome = true) :
    ∃ (id : Nat) (db : Database P.collate) (row : Row GroupCol),
      db.tables = { σ.world.db.tables with group := σ.world.db.tables.group ++ [row] } ∧
      row .group_id = .int id ∧ clip id = id ∧
      (settle (server P) i false σ).world.db = db ∧
      (settle (server P) i false σ).world.store = σ.world.store ∧
      (settle (server P) i false σ).world.made = σ.world.made ++ [(c, id)] ∧
      (∃ e, Event.ctx e = c ∧ (∀ rid, e.answers rid = false) ∧
        (settle (server P) i false σ).world.log = σ.world.log ++ [e]) ∧
      (settle (server P) i false σ).pending =
        σ.pending.eraseIdx i ++ members.map fun v => enrolling c (.num id) (v.get "user_id") := by
  unfold createGroup Prog.query at program
  cases program
  obtain ⟨⟨r, db⟩, completes⟩ := Option.isSome_iff_exists.mp succeeds
  obtain ⟨row, tables, key, range⟩ := createGroup_made completes
  have settled := settle_at waits completes
  simp only [Prog.thenRun, given, JsVal.loop, Prog.attempt] at settled
  rw [enter_members c _ known] at settled
  rw [settled]
  refine ⟨_, db, row, tables, key, range, rfl, rfl, ?_, ⟨_, rfl, fun _ => rfl, rfl⟩, rfl⟩
  simp only [World.made, World.complete, List.filterMap_append]
  rfl

end Requests

section Forms

open Feed

/-- What the page posts for groups, by the clicks before. -/
inductive Asks (clicks : List Click) (tag : Nat) : Post → Prop
  | create (name descr : JsVal) : Asks clicks tag ⟨.createGroup, .createGroup,
      .obj [("group_members", .arr (selected (clicks.take tag))), ("group_name", name),
        ("group_descr", descr)]⟩
  | join {v : JsVal} (chosen : v.isScalar = true) :
      Asks clicks tag ⟨.joinGroup, .joinGroup, .obj [("groupId", v)]⟩

/-- The forms hold what the clicks have put there. -/
structure Forms (housemates : List (Row UserCol)) (p : Page P) : Prop extends p.Numbered where
  list : p.feed.housemates = housemates.map rowJs
  collected : p.feed.currResponsibilityGroup = selected p.clicks
  chosen : p.feed.joinIntoGroup = (joins p.clicks).1
  scalar : p.feed.joinIntoGroup.isScalar = true
  members : ∀ v ∈ selected p.clicks, ∃ u ∈ housemates, v = rowJs u
  asks : ∀ x ∈ p.sent, Asks p.clicks x.1 x.2

variable {housemates : List (Row UserCol)} {p : Page P} {clicks : List Click} {tag : Nat}

theorem selected_append (m : Click) :
    selected (clicks ++ [m]) = selected clicks ++ selected [m] := List.filterMap_append

theorem joins_append (m : Click) : joins (clicks ++ [m]) = joinClick (joins clicks) m := by
  simp [joins]

theorem take_click (m : Click) (before : tag < clicks.length) :
    (clicks ++ [m]).take tag = clicks.take tag :=
  List.take_append_of_le_length (Nat.le_of_lt before)

theorem Asks.click {post : Post} (asks : Asks clicks tag post) (m : Click)
    (before : tag < clicks.length) : Asks (clicks ++ [m]) tag post := by
  cases asks with
  | create name descr =>
    rw [← take_click m before]
    exact .create name descr
  | join chosen => exact .join chosen

/-- A housemate who is selected is collected. -/
theorem addAssigneeToGroup_housemate {s : Feed} (list : s.housemates = housemates.map rowJs)
    {u : Row UserCol} (mem : u ∈ housemates) : s.addAssigneeToGroup (rowJs u) =
      { s with currResponsibilityGroup := s.currResponsibilityGroup ++ [rowJs u] } := by
  unfold addAssigneeToGroup
  split
  · rfl
  · rename_i found
    have there : rowJs u ∈ s.housemates := list ▸ List.mem_map_of_mem mem
    rw [lastIndex_eq_none] at found
    exact absurd ((found _ there).symm.trans (sameEmail_self u)) (by decide)

theorem Forms.click (forms : Forms housemates p) {m : Click} {store : Nat → Option SessionUser}
    (own : Household.Move.Grouping housemates store (.page (.click m))) :
    Forms housemates (p.click m) := by
  have sent : ∀ x ∈ p.sent, Asks (p.clicks ++ [m]) x.1 x.2 := fun x mem =>
    (forms.asks x mem).click m
      (forms.old _ (List.mem_append_left _ (List.mem_map_of_mem mem)))
  have silent : ∀ x ∈ p.sent ++ [], Asks (p.clicks ++ [m]) x.1 x.2 := by simpa using sent
  have kept : selected [m] = [] → selected (p.clicks ++ [m]) = selected p.clicks := fun none => by
    rw [selected_append, none, List.append_nil]
  cases m with
  | addAssigneeToGroup temp =>
    obtain ⟨u, mem, rfl⟩ := own
    have feed := addAssigneeToGroup_housemate forms.list mem
    refine ⟨forms.toNumbered.click (Nat.zero_le _), ?_, ?_, ?_, ?_, ?_, silent⟩
    · simp only [Page.click, Feed.click, feed]
      exact forms.list
    · simp only [Page.click, Feed.click, feed, selected_append, forms.collected]
      rfl
    · simp only [Page.click, Feed.click, feed, joins_append]
      exact forms.chosen
    · simp only [Page.click, Feed.click, feed]
      exact forms.scalar
    · intro v selects
      simp only [Page.click, selected_append] at selects
      rcases List.mem_append.mp selects with old | new
      · exact forms.members v old
      · exact ⟨u, mem, List.mem_singleton.mp new⟩
  | createGroup =>
    refine ⟨forms.toNumbered.click (Nat.le_refl _), forms.list,
      forms.collected.trans (kept rfl).symm, ?_, forms.scalar,
      fun v selects => forms.members v (kept rfl ▸ selects), ?_⟩
    · simp only [Page.click, joins_append]
      exact forms.chosen
    · intro x mem
      rcases List.mem_append.mp mem with old | new
      · exact sent x old
      · have collected : p.feed.currResponsibilityGroup =
            selected ((p.clicks ++ [Click.createGroup]).take p.clicks.length) := by
          rw [List.take_left]
          exact forms.collected
        rw [List.mem_singleton.mp new]
        simp only [Page.click, collected]
        exact .create _ _
  | joinGroup =>
    refine ⟨forms.toNumbered.click (Nat.le_refl _), forms.list,
      forms.collected.trans (kept rfl).symm, ?_, rfl,
      fun v selects => forms.members v (kept rfl ▸ selects), ?_⟩
    · simp only [Page.click, joins_append]
      rfl
    · intro x mem
      rcases List.mem_append.mp mem with old | new
      · exact sent x old
      · rw [List.mem_singleton.mp new]
        exact .join forms.scalar
  | typeGroup name descr =>
    refine ⟨forms.toNumbered.click (Nat.zero_le _), forms.list,
      forms.collected.trans (kept rfl).symm, ?_, forms.scalar,
      fun v selects => forms.members v (kept rfl ▸ selects), silent⟩
    simp only [Page.click, joins_append]
    exact forms.chosen
  | chooseGroup v =>
    refine ⟨forms.toNumbered.click (Nat.zero_le _), forms.list,
      forms.collected.trans (kept rfl).symm, ?_, own,
      fun v selects => forms.members v (kept rfl ▸ selects), silent⟩
    simp only [Page.click, joins_append]
    rfl
  | _ => exact own.elim

theorem Forms.backend (forms : Forms housemates p) (l : Label P) :
    Forms housemates { p with backend := step (server P) l p.backend } :=
  { forms with toNumbered := forms.toNumbered.backend l }

theorem Forms.deliver (forms : Forms housemates p) (sid i : Nat) (env : Request) :
    Forms housemates (p.deliver sid i env) := by
  have numbered := forms.toNumbered.deliver sid i env
  rcases Page.deliver_cases sid i env p with same | ⟨tag, post, -, moved⟩
  · rw [same]
    exact forms
  · rw [moved] at numbered ⊢
    exact ⟨numbered, forms.list, forms.collected, forms.chosen, forms.scalar, forms.members,
      fun x mem => forms.asks x (List.mem_of_mem_eraseIdx mem)⟩

/-- Whoever is selected has a number. -/
theorem Forms.named (forms : Forms housemates p)
    (ids : ∀ u ∈ housemates, ∃ n, u .user_id = .int n ∧ clip n = n) (v : JsVal)
    (selects : v ∈ selected p.clicks) :
    ∃ n, v.prop "user_id" = some (.num n) ∧ v.get "user_id" = .num n ∧ clip n = n := by
  obtain ⟨u, there, rfl⟩ := forms.members v selects
  obtain ⟨n, cell, range⟩ := ids u there
  have named : (rowJs u).get "user_id" = .num n := by
    change cellJs (u .user_id) = _
    rw [cell]
    rfl
  exact ⟨n, congrArg some named, named, range⟩

theorem Forms.unselected (forms : Forms housemates p)
    (ids : ∀ u ∈ housemates, ∃ n, u .user_id = .int n ∧ clip n = n) (tag : Nat) :
    users (selected (earlier (p.clicks.take tag))) = [] ↔
      selected (earlier (p.clicks.take tag)) = [] := by
  refine ⟨fun none => ?_, fun none => by rw [none]; rfl⟩
  rw [users, List.filterMap_eq_nil_iff] at none
  refine List.eq_nil_iff_forall_not_mem.mpr fun v selects => ?_
  have before : v ∈ selected (p.clicks.take tag) := by
    rw [← selected_split]
    exact List.mem_append_left _ selects
  obtain ⟨n, -, named, -⟩ := forms.named ids v
    (((List.take_sublist tag p.clicks).filterMap _).subset before)
  have missing := none v selects
  rw [named] at missing
  cases missing

end Forms

section Serving

open Feed

/-- A request that the page has posted, with what was collected when it was. -/
def FromPage (p : Page P) (c : Ctx) : Prop := ∃ s ∈ p.served, s.rid = c.rid ∧
  c.req.body.get "group_members" = .arr (selected (p.clicks.take s.tag))

/-- What the server has in flight. -/
inductive Waits (p : Page P) : Pending Stmt Stmt.Reply Act Ctx → Prop
  | add (c : Ctx) {g v : JsVal} (chosen : g.isScalar = true) (user : v.IsUser) :
      Waits p (enrolling c g v)
  | create {c : Ctx} {s : Stmt} {k : Option s.Reply → Prog}
      (program : createGroup c.req = .issue s k .done) (known : FromPage p c) : Waits p ⟨c, s, k⟩

/-- The server is at work on groups only. -/
structure Serving (store : Nat → Option SessionUser) (p : Page P) : Prop where
  stored : p.backend.world.store = store
  silent : ∀ e ∈ p.backend.world.log, ∀ rid, e.answers rid = false
  waits : ∀ q ∈ p.backend.pending, Waits p q
  made : ∀ x ∈ p.backend.world.made, FromPage p x.1

variable {housemates : List (Row UserCol)} {store : Nat → Option SessionUser} {p p' : Page P}

/-- Who is put into a group by a request on its way. -/
def asking (user : Option Int) (group : Int) (x : Nat × Post) : Option Int :=
  if x.2.call = .joinGroup ∧ groupNamed (x.2.body.get "groupId") = some group then user else none

theorem FromPage.mono {c : Ctx} (known : FromPage p c) (clicks : p'.clicks = p.clicks)
    (served : p.served ⊆ p'.served) : FromPage p' c := by
  obtain ⟨s, mem, own, body⟩ := known
  exact ⟨s, served mem, own, by rw [clicks]; exact body⟩

theorem Waits.mono {q : Pending Stmt Stmt.Reply Act Ctx} (waits : Waits p q)
    (clicks : p'.clicks = p.clicks) (served : p.served ⊆ p'.served) : Waits p' q := by
  cases waits with
  | add c chosen user => exact .add c chosen user
  | create program known => exact .create program (known.mono clicks served)

theorem FromPage.click {c : Ctx} (known : FromPage p c) (numbered : p.Numbered) (m : Click) :
    FromPage (p.click m) c := by
  obtain ⟨s, mem, own, body⟩ := known
  have before := numbered.old s.tag (List.mem_append_right _ (List.mem_map_of_mem mem))
  exact ⟨s, mem, own, by simpa only [Page.click, take_click m before] using body⟩

theorem Serving.click (serving : Serving store p) (numbered : p.Numbered) (m : Click) :
    Serving store (p.click m) where
  stored := serving.stored
  silent := serving.silent
  waits q mem := by
    cases serving.waits q mem with
    | add c chosen user => exact .add c chosen user
    | create program known => exact .create program (known.click numbered m)
  made x mem := (serving.made x mem).click numbered m

theorem userNamed_ofInt (o : Option Int) : userNamed (.ofInt o) = o := by cases o <;> rfl

/-- A request that arrives puts its statement in flight. -/
theorem deliver_posts (forms : Forms housemates p) (sid i : Nat) (env : Request) {u : SessionUser}
    (signedIn : p.backend.world.store sid = some u) (known : (JsVal.ofInt u.user_id).IsUser) :
    p.deliver sid i env = p ∨ ∃ x q, p.sent[i]? = some x ∧
      p.deliver sid i env = { p with
        backend := ⟨p.backend.world.next, p.backend.pending ++ [q]⟩
        sent := p.sent.eraseIdx i
        served := p.served ++ [⟨x.1, p.backend.world.nextReq, x.2⟩] } ∧
      Waits (p.deliver sid i env) q ∧ ∀ group, q.stmt.puts group = asking u.user_id group x := by
  rcases Page.deliver_cases sid i env p with same | ⟨tag, post, waits, moved⟩
  · exact Or.inl same
  have asks : Asks p.clicks tag post := forms.asks _ (List.mem_of_getElem? waits)
  refine Or.inr ⟨(tag, post), ?_⟩
  cases asks with
  | create name descr =>
    obtain ⟨s, k, program, arrived⟩ := arrive_createGroup p.backend
      (q := Post.request sid env ⟨.createGroup, .createGroup, _⟩) rfl
    rw [arrived] at moved
    refine ⟨_, waits, moved, ?_, fun group => ?_⟩
    · rw [moved]
      exact .create program ⟨_, List.mem_append_right _ (List.mem_singleton_self _), rfl, rfl⟩
    · unfold createGroup Prog.query at program
      cases program
      rfl
  | @join v chosen =>
    have arrived := arrive_joinGroup p.backend
      (q := Post.request sid env ⟨.joinGroup, .joinGroup, .obj [("groupId", v)]⟩) rfl signedIn
    rw [arrived] at moved
    refine ⟨_, waits, moved, .add _ chosen known, fun group => ?_⟩
    simp only [enrolling, Stmt.puts, asking, userNamed_ofInt, true_and]
    rfl

theorem Serving.deliver (serving : Serving store p) (forms : Forms housemates p) (sid i : Nat)
    (env : Request) {u : SessionUser} (signedIn : store sid = some u)
    (known : (JsVal.ofInt u.user_id).IsUser) : Serving store (p.deliver sid i env) := by
  rw [← serving.stored] at signedIn
  rcases deliver_posts forms sid i env signedIn known with same | ⟨x, q, -, moved, waits, -⟩
  · rw [same]
    exact serving
  rw [moved] at waits ⊢
  refine ⟨serving.stored, serving.silent, fun q' mem => ?_,
    fun y mem => (serving.made y mem).mono rfl (List.subset_append_left _ _)⟩
  rcases List.mem_append.mp mem with old | new
  · exact (serving.waits q' old).mono rfl (List.subset_append_left _ _)
  · rw [List.mem_singleton.mp new]
    exact waits

theorem Serving.join (serving : Serving store p) {q : Request} (route : q.route = .joinGroup)
    (chosen : (q.body.get "groupId").isScalar = true) {u : SessionUser}
    (signedIn : store q.sid = some u) (known : (JsVal.ofInt u.user_id).IsUser) :
    Serving store { p with backend := step (server P) (.arrive q) p.backend } := by
  rw [← serving.stored] at signedIn
  rw [arrive_joinGroup _ route signedIn]
  refine ⟨serving.stored, serving.silent, fun q' mem => ?_,
    fun y mem => (serving.made y mem).mono rfl (List.Subset.refl _)⟩
  rcases List.mem_append.mp mem with old | new
  · exact (serving.waits q' old).mono rfl (List.Subset.refl _)
  · rw [List.mem_singleton.mp new]
    exact .add _ chosen known

/-- Who is put into a group when it is made. -/
def placed (group : Int) (x : Ctx × Nat) : List Int :=
  if (x.2 : Int) = group then users (x.1.req.body.get "group_members").items else []

/-- What the server does when a statement is completed: the groups it makes, and what it puts
in flight behind it. -/
structure Completes (p : Page P) (σ : Config P) (i : Nat)
    (q : Pending Stmt Stmt.Reply Act Ctx) (groups : List (Ctx × Nat))
    (more : List (Pending Stmt Stmt.Reply Act Ctx)) : Prop where
  waits : p.backend.pending[i]? = some q
  store : σ.world.store = p.backend.world.store
  log : ∃ e : Event, (∀ rid, e.answers rid = false) ∧ σ.world.log = p.backend.world.log ++ [e]
  made : σ.world.made = p.backend.world.made ++ groups
  known : ∀ x ∈ groups, FromPage p x.1
  keys : σ.world.db.tables.group.map (· .group_id) =
    p.backend.world.db.tables.group.map (· .group_id) ++ groups.map fun x => .int x.2
  pending : σ.pending = p.backend.pending.eraseIdx i ++ more
  follow : ∀ q' ∈ more, Waits p q'
  members : ∀ group, memberIds σ.world.db.tables group =
    memberIds p.backend.world.db.tables group ++ (q.stmt.puts group).toList
  puts : ∀ group, more.filterMap (fun q' => q'.stmt.puts group) = groups.flatMap (placed group)

theorem groupNamed_num {id : Nat} (range : clip id = id) : groupNamed (.num id) = some (id : Int) :=
  congrArg some range

/-- The members of a new group are put into it and into no other. -/
theorem enrolling_puts {c : Ctx} {id : Nat} (range : clip id = id) (members : List JsVal)
    (group : Int) :
    (members.map fun v => enrolling c (.num id) (v.get "user_id")).filterMap
        (fun q => q.stmt.puts group) =
      if (id : Int) = group then users members else [] := by
  have named := groupNamed_num range
  rw [List.filterMap_map, users]
  by_cases here : (id : Int) = group
  · rw [if_pos here]
    subst here
    refine List.filterMap_congr fun v _ => ?_
    simp [Function.comp, enrolling, Stmt.puts, named]
  · rw [if_neg here, List.filterMap_eq_nil_iff]
    intro v _
    simp [Function.comp, enrolling, Stmt.puts, named, here]

theorem serve_completes (forms : Forms housemates p) (serving : Serving store p)
    (ids : ∀ u ∈ housemates, ∃ n, u .user_id = .int n ∧ clip n = n) {i : Nat} {lost : Bool}
    (succeeds : lost = false ∧ ∀ q ∈ p.backend.pending[i]?,
      (exec P.collate q.stmt p.backend.world.db).isSome = true) :
    settle (server P) i lost p.backend = p.backend ∨ ∃ q groups more,
      Completes p (settle (server P) i lost p.backend) i q groups more := by
  obtain ⟨rfl, completes⟩ := succeeds
  cases waits : p.backend.pending[i]? with
  | none => exact Or.inl (by simp [settle, waits])
  | some q =>
    have success := completes q waits
    cases serving.waits q (List.mem_of_getElem? waits) with
    | @add c g v chosen user =>
      obtain ⟨⟨r, db⟩, done⟩ := Option.isSome_iff_exists.mp success
      obtain ⟨row, tables, members⟩ := addUserToGroup_members chosen user done
      have settled := settle_at waits done
      refine Or.inr ⟨enrolling c g v, [], [], ?_⟩
      rw [settled]
      exact
        { waits := waits
          store := rfl
          log := ⟨_, fun _ => rfl, rfl⟩
          made := by
            simp only [World.made, World.complete, enter, List.filterMap_append]
            rfl
          known := fun _ mem => absurd mem List.not_mem_nil
          keys := by simp only [World.complete, enter, tables, List.map_nil, List.append_nil]
          pending := (List.append_nil _).symm
          follow := fun _ mem => absurd mem List.not_mem_nil
          members := members
          puts := fun _ => rfl }
    | @create c s k program known =>
      obtain ⟨asked, mem, own, body⟩ := known
      have users := fun v selects => forms.named ids v
        (((List.take_sublist asked.tag p.clicks).filterMap _).subset selects)
      obtain ⟨id, db, row, tables, key, range, outcome⟩ := settle_createGroup program waits body
        (fun v selects => (users v selects).imp fun n named => named.1) success
      obtain ⟨settled, stored, made, ⟨e, -, silent, log⟩, pending⟩ := outcome
      refine Or.inr ⟨⟨c, s, k⟩, [(c, id)], (selected (p.clicks.take asked.tag)).map fun v =>
        enrolling c (.num id) (v.get "user_id"), ?_⟩
      exact
        { waits := waits
          store := stored
          log := ⟨e, silent, log⟩
          made := made
          known := fun x there => by
            rw [List.mem_singleton.mp there]
            exact ⟨asked, mem, own, body⟩
          keys := by
            rw [settled, tables, List.map_append, List.map_cons, key]
            rfl
          pending := pending
          follow := fun q' there => by
            obtain ⟨v, selects, rfl⟩ := List.mem_map.mp there
            obtain ⟨n, -, named, fits⟩ := users v selects
            exact .add c rfl (Or.inr ⟨n, named, fits⟩)
          members := fun group => by
            have none : s.puts group = none := by
              unfold createGroup Prog.query at program
              cases program
              rfl
            rw [settled, none, memberIds, tables]
            exact (List.append_nil _).symm
          puts := fun group => by
            rw [enrolling_puts range, List.flatMap_singleton, placed, body]
            rfl }

theorem Serving.serve (serving : Serving store p) {σ : Config P} {i : Nat}
    {q : Pending Stmt Stmt.Reply Act Ctx} {groups : List (Ctx × Nat)}
    {more : List (Pending Stmt Stmt.Reply Act Ctx)} (completes : Completes p σ i q groups more) :
    Serving store { p with backend := σ } where
  stored := completes.store.trans serving.stored
  silent e mem := by
    obtain ⟨e', silent, log⟩ := completes.log
    rcases List.mem_append.mp (log ▸ mem) with old | new
    · exact serving.silent e old
    · rw [List.mem_singleton.mp new]
      exact silent
  waits q' mem := by
    rcases List.mem_append.mp (completes.pending ▸ mem) with old | new
    · exact (serving.waits q' (List.mem_of_mem_eraseIdx old)).mono rfl (List.Subset.refl _)
    · exact (completes.follow q' new).mono rfl (List.Subset.refl _)
  made x mem := by
    rcases List.mem_append.mp (completes.made ▸ mem) with old | new
    · exact (serving.made x old).mono rfl (List.Subset.refl _)
    · exact (completes.known x new).mono rfl (List.Subset.refl _)

/-- No answer comes, so nothing reaches the page. -/
theorem Serving.receive (serving : Serving store p) (j : Nat) : p.receive j = p := by
  rcases Page.receive_cases j p with same | ⟨s, answer, -, replies, -⟩
  · exact same
  · have none : p.backend.world.reply s.rid = none := reply_of_unanswered
      (List.any_eq_false.mpr fun e mem answers =>
        absurd answers (by rw [serving.silent e mem s.rid]; decide))
    rw [none] at replies
    cases replies

end Serving

section Tally

open Feed

/-- Every row that was added, is to be added or is asked for belongs to a user who was selected
when a group was made, or who joined one. -/
structure Tally (user : Option Int) (db : Database P.collate) (g : Household P) : Prop where
  keys : g.page.backend.world.db.tables.group.map (· .group_id) =
    db.tables.group.map (· .group_id) ++ g.page.backend.world.made.map fun x => .int x.2
  count : ∀ group m, (memberIds g.page.backend.world.db.tables group).count m +
      (g.page.backend.pending.filterMap fun q => q.stmt.puts group).count m +
      (g.page.sent.filterMap (asking user group)).count m =
    (memberIds db.tables group).count m + (g.joined user group).count m +
      (g.page.backend.world.made.flatMap (placed group)).count m

variable {housemates : List (Row UserCol)} {store : Nat → Option SessionUser}
variable {user : Option Int} {db : Database P.collate} {g : Household P}

/-- One element less. -/
theorem count_erased {α β : Type} [BEq β] [LawfulBEq β] {l : List α} {i : Nat} {a : α}
    (f : α → Option β) (m : β) (here : l[i]? = some a) :
    (l.filterMap f).count m = (f a).toList.count m + ((l.eraseIdx i).filterMap f).count m := by
  obtain ⟨lt, found⟩ := List.getElem?_eq_some_iff.mp here
  have perm := ((List.getElem_cons_eraseIdx_perm lt).filterMap f).count_eq m
  rw [← perm, found, List.filterMap_cons]
  cases f a with
  | none => simp
  | some b => simp [List.count_cons, Nat.add_comm]

/-- One element more. -/
theorem count_added {α β : Type} [BEq β] [LawfulBEq β] (f : α → Option β) (m : β) (l : List α)
    (a : α) :
    ((l ++ [a]).filterMap f).count m = (l.filterMap f).count m + (f a).toList.count m := by
  rw [List.filterMap_append, List.count_append]
  cases named : f a <;> simp [named]

theorem Tally.click (tally : Tally user db g) (forms : Forms housemates g.page) {m : Click}
    (own : Household.Move.Grouping housemates store (.page (.click m))) :
    Tally user db { g with page := g.page.click m } := by
  refine ⟨tally.keys, fun group n => ?_⟩
  have before := tally.count group n
  suffices moved : ((g.page.click m).sent.filterMap (asking user group)).count n +
      (g.joined user group).count n = (g.page.sent.filterMap (asking user group)).count n +
        (Household.joined user { g with page := g.page.click m } group).count n by
    simp only [Page.click] at moved ⊢
    omega
  cases m with
  | joinGroup =>
    simp only [Page.click, Feed.click, Feed.joinGroup, Household.joined, joins_append, joinClick,
      List.map_append, List.filterMap_append, List.count_append, forms.chosen]
    simp only [List.map_cons, List.map_nil, List.filterMap_cons, List.filterMap_nil, asking,
      true_and]
    have named : (JsVal.obj [("groupId", (joins g.page.clicks).1)]).get "groupId" =
        (joins g.page.clicks).1 := rfl
    rw [named]
    omega
  | createGroup =>
    simp [Page.click, Feed.click, Feed.createGroup, Household.joined, joins_append, joinClick,
      asking]
  | addAssigneeToGroup temp =>
    simp [Page.click, Feed.click, Household.joined, joins_append, joinClick]
  | typeGroup name descr => simp [Page.click, Feed.click, Household.joined, joins_append, joinClick]
  | chooseGroup v => simp [Page.click, Feed.click, Household.joined, joins_append, joinClick]
  | _ => exact own.elim

/-- A request that arrives is asked for no more, and its statement is in flight. -/
theorem Tally.deliver (tally : Tally user db g) {x : Nat × Post} {i : Nat} {p : Page P}
    {q : Pending Stmt Stmt.Reply Act Ctx} {served : List Served} (waits : g.page.sent[i]? = some x)
    (moved : p = { g.page with
      backend := ⟨g.page.backend.world.next, g.page.backend.pending ++ [q]⟩
      sent := g.page.sent.eraseIdx i
      served := served })
    (puts : ∀ group, q.stmt.puts group = asking user group x) :
    Tally user db { g with page := p } := by
  subst moved
  refine ⟨tally.keys, fun group n => ?_⟩
  have before := tally.count group n
  rw [count_erased (asking user group) n waits, ← puts] at before
  change (memberIds g.page.backend.world.db.tables group).count n +
      ((g.page.backend.pending ++ [q]).filterMap fun q => q.stmt.puts group).count n +
      ((g.page.sent.eraseIdx i).filterMap (asking user group)).count n =
    (memberIds db.tables group).count n + (g.joined user group).count n +
      (g.page.backend.world.made.flatMap (placed group)).count n
  rw [count_added]
  omega

/-- A user of another client has joined. -/
theorem Tally.join (tally : Tally user db g) {q : Request} {u : SessionUser}
    (route : q.route = .joinGroup) (signedIn : g.page.backend.world.store q.sid = some u) :
    Tally user db (g.join q) := by
  unfold Household.join
  rw [arrive_joinGroup _ route signedIn, signedIn]
  refine ⟨tally.keys, fun group n => ?_⟩
  have before := tally.count group n
  have joined : Household.joined user
      ⟨g.page, g.others ++ [(q.body.get "groupId", u.user_id)]⟩ group = g.joined user group ++
        (if groupNamed (q.body.get "groupId") = some group then u.user_id else none).toList := by
    simp only [Household.joined, ← List.append_assoc, List.filterMap_append]
    congr 1
  have count := congrArg (List.count n) joined
  rw [List.count_append] at count
  change (memberIds g.page.backend.world.db.tables group).count n +
      ((g.page.backend.pending ++ [enrolling (g.page.backend.world.context q) (q.body.get "groupId")
        (.ofInt u.user_id)]).filterMap fun q => q.stmt.puts group).count n +
      (g.page.sent.filterMap (asking user group)).count n =
    (memberIds db.tables group).count n + (Household.joined user ⟨g.page, g.others ++
      [(q.body.get "groupId", u.user_id)]⟩ group).count n +
      (g.page.backend.world.made.flatMap (placed group)).count n
  have puts : (enrolling (g.page.backend.world.context q) (q.body.get "groupId")
      (.ofInt u.user_id)).stmt.puts group =
        if groupNamed (q.body.get "groupId") = some group then u.user_id else none := by
    simp only [enrolling, Stmt.puts, userNamed_ofInt]
  rw [count_added, count, puts]
  omega

/-- What is completed is in flight no more, and a group that is made takes its members in. -/
theorem Tally.serve (tally : Tally user db g) {σ : Config P} {i : Nat}
    {q : Pending Stmt Stmt.Reply Act Ctx} {groups : List (Ctx × Nat)}
    {more : List (Pending Stmt Stmt.Reply Act Ctx)}
    (completes : Completes g.page σ i q groups more) :
    Tally user db { g with page := { g.page with backend := σ } } := by
  refine ⟨?_, fun group n => ?_⟩
  · dsimp only
    rw [completes.keys, completes.made, tally.keys, List.map_append, List.append_assoc]
  · have before := tally.count group n
    rw [count_erased (fun q => q.stmt.puts group) n completes.waits] at before
    dsimp only [Household.joined] at before ⊢
    rw [completes.members, completes.pending, completes.made, List.filterMap_append,
      List.flatMap_append, completes.puts]
    simp only [List.count_append]
    omega

/-- The groups that were made are told apart from each other and from the older ones. -/
theorem Tally.made_keys (tally : Tally user db g) :
    g.page.backend.world.made.Pairwise (fun x y => x.2 ≠ y.2) ∧
      ∀ x ∈ g.page.backend.world.made, memberIds db.tables x.2 = [] := by
  have keyed := keyed_iff_keys.mp g.page.backend.world.db.sound.group_key
  rw [tally.keys] at keyed
  obtain ⟨-, new, apart⟩ := List.pairwise_append.mp keyed
  refine ⟨(List.pairwise_map.mp new).imp ?_, ?_⟩
  · intro x y other same
    rw [same] at other
    exact other (by simp [eqValue])
  intro x mem
  rw [memberIds, List.filterMap_eq_nil_iff]
  intro row there
  refine if_neg fun named => ?_
  rcases db.sound.userGroups_group row there with none | ⟨old, known, refers⟩
  · rw [named] at none
    cases none
  · rw [named, eqValue_symm] at refers
    exact apart _ (List.mem_map_of_mem known) _ (List.mem_map_of_mem mem) refers

/-- Only the request a group was made for puts users in when it is made. -/
theorem flatMap_placed {groups : List (Ctx × Nat)} (apart : groups.Pairwise fun x y => x.2 ≠ y.2)
    {x : Ctx × Nat} (mem : x ∈ groups) :
    groups.flatMap (placed x.2) = users (x.1.req.body.get "group_members").items := by
  have others : ∀ ys : List (Ctx × Nat), (∀ y ∈ ys, y.2 ≠ x.2) →
      ys.flatMap (placed x.2) = [] := by
    intro ys other
    refine List.flatMap_eq_nil_iff.mpr fun y there => if_neg fun same => ?_
    exact other y there (Int.ofNat_inj.mp same)
  obtain ⟨before, after, rfl⟩ := List.append_of_mem mem
  obtain ⟨-, behind, apart⟩ := List.pairwise_append.mp apart
  rw [List.flatMap_append, List.flatMap_cons,
    others before fun y there => apart y there x List.mem_cons_self,
    others after fun y there => ((List.pairwise_cons.mp behind).1 y there).symm]
  simp [placed]

end Tally

namespace Household

open Feed

/-- What holds in every state of a run. -/
structure Grouped (housemates : List (Row UserCol)) (store : Nat → Option SessionUser)
    (user : Option Int) (db : Database P.collate) (g : Household P) : Prop where
  forms : Forms housemates g.page
  serving : Serving store g.page
  tally : Tally user db g

section Runs

variable {housemates : List (Row UserCol)} {store : Nat → Option SessionUser}
variable {db : Database P.collate} {g : Household P} {sid : Nat} {u : SessionUser}

theorem Grouped.move (grouped : Grouped housemates store u.user_id db g)
    (signedIn : store sid = some u)
    (known : ∀ sid u, store sid = some u → (JsVal.ofInt u.user_id).IsUser)
    (ids : ∀ u ∈ housemates, ∃ n, u .user_id = .int n ∧ clip n = n) {m : Move}
    (own : m.Grouping housemates store) (succeeds : g.Succeeds m) :
    Grouped housemates store u.user_id db (g.move sid m) := by
  have user := known sid u signedIn
  have here : g.page.backend.world.store sid = some u := by rw [grouped.serving.stored, signedIn]
  cases m with
  | page m =>
    cases m with
    | click m =>
      exact ⟨grouped.forms.click own, grouped.serving.click grouped.forms.toNumbered m,
        grouped.tally.click grouped.forms own⟩
    | deliver i env =>
      have forms := grouped.forms.deliver sid i env
      have serving := grouped.serving.deliver grouped.forms sid i env signedIn user
      refine ⟨forms, serving, ?_⟩
      simp only [Household.move, Page.move]
      rcases deliver_posts grouped.forms sid i env here user with
        same | ⟨x, q, waits, moved, -, puts⟩
      · rw [same]
        exact grouped.tally
      · exact grouped.tally.deliver waits moved puts
    | serve i lost =>
      have forms := grouped.forms.backend (.settle i lost)
      simp only [Household.move, Page.move]
      rcases serve_completes grouped.forms grouped.serving ids succeeds with
        same | ⟨q, groups, more, completes⟩
      · rw [same]
        exact grouped
      · exact ⟨forms, grouped.serving.serve completes, grouped.tally.serve completes⟩
    | receive j =>
      simp only [Household.move, Page.move, grouped.serving.receive j]
      exact grouped
  | join q =>
    obtain ⟨route, chosen, someone⟩ := own
    obtain ⟨u', theirs⟩ := Option.isSome_iff_exists.mp someone
    refine ⟨grouped.forms.backend (.arrive q), grouped.serving.join route chosen theirs
      (known _ _ theirs), grouped.tally.join route (u := u') ?_⟩
    rw [grouped.serving.stored, theirs]

/-- When nothing is on its way, a new group has a row for each selection since the page was
opened, and for each user who joined. -/
theorem Grouped.members {user : Option Int} (grouped : Grouped housemates store user db g)
    (quiet : g.page.Quiet) {y : Nat × Nat} (created : y ∈ g.created) :
    (memberIds g.page.backend.world.db.tables y.2).Perm
      (users (selected (earlier (g.page.clicks.take y.1))) ++ g.wanted user y.1 y.2) := by
  obtain ⟨s, mem, created⟩ := List.mem_flatMap.mp created
  obtain ⟨x, made, created⟩ := List.mem_filterMap.mp created
  obtain ⟨own, created⟩ := Option.ite_none_right_eq_some.mp created
  cases created
  obtain ⟨asked, there, same, body⟩ := grouped.serving.made x made
  obtain ⟨apart, free⟩ := grouped.tally.made_keys
  have only : asked = s := grouped.forms.toNumbered.eq_of_rid mem there (same.trans own)
  subst only
  rw [List.perm_iff_count]
  intro n
  have count := grouped.tally.count x.2 n
  rw [quiet.1, quiet.2.1, free x made, flatMap_placed apart made, body] at count
  simp only [JsVal.items, ← selected_split (g.page.clicks.take asked.tag), users,
    List.filterMap_append, List.filterMap_nil, List.count_nil, List.count_append, wanted] at count ⊢
  omega

end Runs

/-- A list in front of another adds nothing to its distinct elements. -/
theorem perm_dedup_iff {α : Type} [DecidableEq α] {first rest : List α} :
    (first ++ rest).Perm rest.dedup ↔ first = [] ∧ rest.Nodup := by
  constructor
  · intro perm
    have shorter := (List.dedup_sublist rest).length_le
    have same := perm.length_eq
    rw [List.length_append] at same
    have none : first.length = 0 := by omega
    refine ⟨List.length_eq_zero_iff.mp none, List.dedup_eq_self.mp ?_⟩
    exact (List.dedup_sublist rest).eq_of_length (by omega)
  · rintro ⟨rfl, distinct⟩
    rw [distinct.dedup]
    exact List.Perm.refl _

/-- The groups that the page has made hold who is meant to be in them exactly when nothing was
selected before an earlier group and nobody is meant twice. -/
theorem group_members_iff {sid : Nat} {feed : Feed} {housemates : List (Row UserCol)}
    {db : Database P.collate} {store : Nat → Option SessionUser} {u : SessionUser}
    (list : feed.housemates = housemates.map rowJs) (empty : feed.currResponsibilityGroup = [])
    (unchosen : feed.joinIntoGroup = .undefined)
    (members : ∀ row ∈ housemates, row ∈ db.tables.user)
    (signedIn : store sid = some u)
    (known : ∀ sid u n, store sid = some u → u.user_id = some n →
      ∃ row ∈ db.tables.user, row .user_id = .int n)
    {ms : List Move} (own : ∀ m ∈ ms, m.Grouping housemates store)
    (succeeds : Traces.Along (Household.move sid) Succeeds ms ⟨.opened feed db store, []⟩)
    (quiet : (run sid ms ⟨.opened feed db store, []⟩).page.Quiet) :
    (run sid ms ⟨.opened feed db store, []⟩).Matched u.user_id ↔
      (run sid ms ⟨.opened feed db store, []⟩).Separate u.user_id := by
  have ids : ∀ row ∈ housemates, ∃ n, row .user_id = .int n ∧ clip n = n := by
    intro row mem
    obtain ⟨n, cell⟩ := int_cell (c := .user_id) rfl rfl db.sound.user_typed (members row mem)
    exact ⟨n, cell, clip_cell rfl db.sound.user_typed (members row mem) cell⟩
  have users : ∀ sid u, store sid = some u → (JsVal.ofInt u.user_id).IsUser := by
    intro sid u session
    cases named : u.user_id with
    | none => exact Or.inl rfl
    | some n =>
      obtain ⟨row, mem, cell⟩ := known sid u n session named
      exact Or.inr ⟨n, rfl, clip_cell rfl db.sound.user_typed mem cell⟩
  have start : Grouped housemates store u.user_id db ⟨.opened feed db store, []⟩ :=
    { forms := ⟨Page.opened_numbered feed db store, list, empty, unchosen,
        by rw [Page.opened, unchosen]; rfl, (fun _ mem => nomatch mem), fun _ mem => nomatch mem⟩
      serving := ⟨rfl, (fun _ mem => nomatch mem), (fun _ mem => nomatch mem),
        fun _ mem => nomatch mem⟩
      tally := ⟨(List.append_nil _).symm, fun _ _ => rfl⟩ }
  have grouped : Grouped housemates store u.user_id db (run sid ms ⟨.opened feed db store, []⟩) :=
    Traces.run_invariant (Grouped housemates store u.user_id db)
      (fun g m meets grouped => grouped.move signedIn users ids meets.1 meets.2)
      ((Traces.along_of_forall own _).and succeeds) start
  refine forall₂_congr fun x created => ?_
  have rows := grouped.members quiet created
  rw [← grouped.forms.unselected ids x.1, ← perm_dedup_iff]
  exact ⟨fun perm => rows.symm.trans perm, fun perm => rows.trans perm⟩

section Samples

def ann : Row UserCol := houseMember 1 "Ann" (.text "ann@x")

def ben : Row UserCol := houseMember 2 "Ben" (.text "ben@x")

/-- Two users, and no group. -/
def annAndBensTables : Database samplePlatform.collate where
  tables := { noTables with user := [ann, ben] }
  next := ⟨3, 1, 1, 1, 1, 1, 1⟩
  sound := by decide +kernel

/-- Ann's page. -/
def annsHousehold : Household samplePlatform where
  page := .opened { housemates := [ann, ben].map rowJs } annAndBensTables
    fun _ => some (SessionUser.ofRow ann)

/-- A housemate is selected, and a group is made of what has been collected. -/
def makesGroup (housemate : Row UserCol) : List Move :=
  [.page (.click (.addAssigneeToGroup (rowJs housemate))),
    .page (.click (.typeGroup (.str "cooks") (.str "they cook"))), .page (.click .createGroup),
    .page (.deliver 0 { sid := 0, route := .tasks }), .page (.serve 0 false),
    .page (.serve 0 false)]

/-- Ann makes a group of Ben, and joins it. -/
def annsGroup : List Move :=
  makesGroup ben ++ [.page (.click (.chooseGroup (.num 1))), .page (.click .joinGroup),
    .page (.deliver 0 { sid := 0, route := .tasks }), .page (.serve 0 false)]

/-- Then she makes one of herself. -/
def annsOwnGroup : List Move := annsGroup ++ makesGroup ann ++ [.page (.serve 0 false)]

theorem makesGroup_grouping {housemates : List (Row UserCol)}
    {store : Nat → Option SessionUser} {housemate : Row UserCol} (mem : housemate ∈ housemates) :
    ∀ m ∈ makesGroup housemate, m.Grouping housemates store := by
  simp only [makesGroup, List.forall_mem_cons]
  exact ⟨⟨housemate, mem, rfl⟩, trivial, trivial, trivial, trivial, trivial,
    fun _ none => absurd none List.not_mem_nil⟩

theorem annsGroup_grouping : ∀ m ∈ annsGroup, m.Grouping [ann, ben]
    fun _ => some (SessionUser.ofRow ann) := by
  rw [annsGroup, List.forall_mem_append]
  refine ⟨makesGroup_grouping (by decide), ?_⟩
  simp only [List.forall_mem_cons]
  exact ⟨rfl, trivial, trivial, trivial, fun _ none => absurd none List.not_mem_nil⟩

/-- Ann's group has a row for Ben and one for her. -/
theorem group_members_sample :
    (run 0 annsGroup annsHousehold).created = [(2, 1)] ∧
    memberIds (run 0 annsGroup annsHousehold).page.backend.world.db.tables 1 = [2, 1] ∧
    (run 0 annsGroup annsHousehold).Matched (some 1) := by
  have created : (run 0 annsGroup annsHousehold).created = [(2, 1)] := by decide +kernel
  have list : annsHousehold.page.feed.housemates = [ann, ben].map rowJs := rfl
  have signedIn : annsHousehold.page.backend.world.store 0 = some (SessionUser.ofRow ann) := rfl
  have separate : (run 0 annsGroup annsHousehold).Separate (some 1) := by
    intro x mem
    rw [created, List.mem_singleton] at mem
    subst mem
    have before :
        (selected (earlier ((run 0 annsGroup annsHousehold).page.clicks.take 2))).isEmpty =
          true := by decide +kernel
    exact ⟨List.isEmpty_iff.mp before, by decide +kernel⟩
  refine ⟨created, by decide +kernel, (group_members_iff list rfl rfl (fun row mem => mem) signedIn
    ?_ annsGroup_grouping (by decide +kernel) (by decide +kernel)).mpr separate⟩
  rintro _ _ n ⟨⟩ ⟨⟩
  exact ⟨ann, by decide, rfl⟩

/-- Ben is in the group that Ann made of herself alone. -/
theorem earlier_member_leaks :
    (∀ m ∈ annsOwnGroup, m.Grouping [ann, ben] fun _ => some (SessionUser.ofRow ann)) ∧
    Traces.Along (Household.move 0) Succeeds annsOwnGroup annsHousehold ∧
    (run 0 annsOwnGroup annsHousehold).page.Quiet ∧
    ¬ (run 0 annsOwnGroup annsHousehold).Matched (some 1) := by
  refine ⟨?_, by decide +kernel, by decide +kernel, by decide +kernel⟩
  rw [annsOwnGroup, List.forall_mem_append, List.forall_mem_append]
  refine ⟨⟨annsGroup_grouping, makesGroup_grouping (by decide)⟩, ?_⟩
  simp only [List.forall_mem_cons]
  exact ⟨trivial, fun _ none => absurd none List.not_mem_nil⟩

end Samples

end Household

end OneRoof
