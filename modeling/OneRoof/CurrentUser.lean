import OneRoof.Assignees
import OneRoof.Enrolment
import OneRoof.Rosters
import OneRoof.Safety

/-!
# How the page knows its user

The page finds its own user among the members of the house by the name to display. The
session keeps the name it had when it was opened, or when the name was changed in that
session, and two members may have one name: then the page takes another member for its
user, or none.
-/

namespace OneRoof

open Sql Async Async.Prog Prog

variable {P : Platform}

/-- The member has the name that the session keeps. -/
def Named (u : SessionUser) (member : Row UserCol) : Prop :=
  u.displayName.looseEq (cellJs (member .displayName)) = some true

instance (u : SessionUser) : DecidablePred (Named u) := fun _ => inferInstanceAs (Decidable (_ = _))

/-- The member has the name that the session keeps, and nobody behind has it. -/
def Recognised (u : SessionUser) (members : List (Row UserCol)) (row : Row UserCol) : Prop :=
  Named u row ∧ ∃ before after, members = before ++ row :: after ∧ ∀ w ∈ after, ¬ Named u w

section Loop

variable {u : SessionUser} {members : List (Row UserCol)} {row : Row UserCol}

theorem recognised_iff :
    Recognised u members row ↔ (members.filter (Named u ·)).getLast? = some row := by
  rw [List.getLast?_eq_some_iff]
  constructor
  · rintro ⟨named, before, after, rfl, nobody⟩
    refine ⟨before.filter (Named u ·), ?_⟩
    have none : after.filter (Named u ·) = [] :=
      List.filter_eq_nil_iff.mpr fun w hw => by simpa using nobody w hw
    rw [List.filter_append, List.filter_cons_of_pos (by simpa using named), none]
  · rintro ⟨front, split⟩
    obtain ⟨before, rest, rfl, -, last⟩ := List.filter_eq_append_iff.mp split
    obtain ⟨skipped, after, rfl, -, named, none⟩ := List.filter_eq_cons_iff.mp last
    refine ⟨of_decide_eq_true named, before ++ skipped, after, by simp, fun w hw => ?_⟩
    simpa using List.filter_eq_nil_iff.mp none w hw

/-- Whether a comparison with a cell raises does not depend on the cell, null apart. -/
theorem looseEq_cells (name : JsVal) : (∀ v : Value, name.looseEq (cellJs v) ≠ none) ∨
    ∀ v : Value, name.looseEq (cellJs v) ≠ some true := by
  have scalar : ∀ v : Value, (cellJs v).isScalar = true := fun v => by cases v <;> rfl
  cases simple : name.isScalar with
  | true => exact Or.inl fun v => by simp [JsVal.looseEq, simple, scalar v]
  | false =>
    cases text : name.toStr with
    | none =>
      refine Or.inr fun v => ?_
      simp only [JsVal.looseEq, simple, scalar v, text, Option.map_none]
      split <;> simp
    | some s =>
      refine Or.inl fun v => ?_
      simp only [JsVal.looseEq, simple, scalar v, text, Option.map_some]
      split <;> simp

theorem isCurrent_row (name : JsVal) (row : Row UserCol) :
    Feed.isCurrent name (rowJs row) = name.looseEq (cellJs (row .displayName)) := rfl

/-- The loop ends with the last member that has the name. -/
theorem loadEach_userObj (u : SessionUser) (members : List (Row UserCol)) (s : Feed) :
    (Feed.loadEach u.displayName (members.map rowJs) s).userObj =
      ((members.filter (Named u ·)).getLast?.map rowJs).getD s.userObj := by
  rcases looseEq_cells u.displayName with compared | unnamed
  · induction members generalizing s with
    | nil => rfl
    | cons row members ih =>
      obtain ⟨current, found⟩ := Option.ne_none_iff_exists'.mp (compared (row .displayName))
      simp only [List.map_cons, Feed.loadEach, isCurrent_row, found, ih]
      by_cases named : Named u row
      · have : current = true := Option.some.inj (found.symm.trans named)
        rw [List.filter_cons_of_pos (by simpa using named), List.getLast?_cons, this]
        cases (members.filter (Named u ·)).getLast? <;> rfl
      · have : current = false := by
          cases current with
          | false => rfl
          | true => exact absurd found named
        rw [List.filter_cons_of_neg (by simpa using named), this]
        rfl
  · have other : ∀ w, ¬ Named u w := fun w => unnamed (w .displayName)
    have nobody : members.filter (Named u ·) = [] :=
      List.filter_eq_nil_iff.mpr fun w _ => by simpa using other w
    rw [nobody]
    induction members generalizing s with
    | nil => rfl
    | cons row members ih =>
      simp only [List.map_cons, Feed.loadEach, isCurrent_row]
      cases found : u.displayName.looseEq (cellJs (row .displayName)) with
      | none => rfl
      | some current =>
        have : current = false := by
          cases current with
          | false => rfl
          | true => exact absurd found (unnamed _)
        subst this
        exact ih _ (List.filter_eq_nil_iff.mpr fun w _ => by simpa using other w)

theorem js_displayName (u : SessionUser) : u.js.prop "displayName" = some u.displayName := by
  simp only [JsVal.prop, SessionUser.js, JsVal.get, List.find?_filter]
  cases u.displayName <;> simp

/-- What the page takes for its user once the members are loaded. -/
theorem loadUsers_userObj (currentTask : JsVal) (u : SessionUser) (members : List (Row UserCol)) :
    ((Feed.start currentTask).loadUsers (.arr [u.js, rowsJs members])).userObj =
      ((members.filter (Named u ·)).getLast?.map rowJs).getD (.num 0) := by
  have nobody : (Feed.start currentTask).userObj = .num 0 := by
    unfold Feed.start
    split <;> rfl
  simp only [Feed.loadUsers, rowsJs, js_displayName]
  rw [loadEach_userObj, nobody]

/-- It is a given member exactly when that one is recognised. -/
theorem loadUsers_recognises (currentTask : JsVal) :
    ((Feed.start currentTask).loadUsers (.arr [u.js, rowsJs members])).userObj = rowJs row ↔
      Recognised u members row := by
  rw [loadUsers_userObj, recognised_iff]
  cases (members.filter (Named u ·)).getLast? with
  | none => exact iff_of_false nofun nofun
  | some last =>
    constructor
    · exact fun same => congrArg some (Feed.rowJs_inj same)
    · exact fun same => congrArg rowJs (Option.some.inj same)

end Loop

section Answers

variable {c : Ctx}

/-- What `getUsers` answers: the session's user and a list of rows. -/
def ListsHouse (c : Ctx) (answer : Answer) (_ : Option SessionUser) : Prop :=
  c.req.route = .getUsers → ∀ v, answer = .json v →
    ∃ u, ∃ members : List (Row UserCol), c.user = some u ∧ v = .arr [u.js, rowsJs members]

theorem handler_listsHouse (c : Ctx) : (handler P c).Acts (Act.Answers ListsHouse c) := by
  have refusal : ∀ (code : Nat) (text : String) (user : Option SessionUser),
      (Prog.send (.status code text) user).Acts (Act.Answers ListsHouse c) := by
    intro code text user
    refine ⟨fun _ v none => ?_, fun b => ?_⟩
    · cases none
    · cases b <;> trivial
  by_cases route : c.req.route = .getUsers
  · simp only [handler, OneRoof.route, route, getUsers]
    refine Acts.recover ?_ (refusal _ _ _)
    cases user : c.user with
    | none => trivial
    | some u =>
      simp only [withUser, attempt]
      cases u.houseID with
      | none => trivial
      | some h =>
        refine ⟨fun r => ?_, trivial⟩
        cases r with
        | none => trivial
        | some rows =>
          refine ⟨fun _ v hv => ?_, fun b => by cases b <;> trivial⟩
          cases hv
          exact ⟨u, rows, user, rfl⟩
  · refine acts_of_forall (fun a => ?_) _
    cases a with
    | send answer user => exact fun h => absurd h route
    | sendGathered user => exact fun _ h => absurd h route
    | _ => trivial

/-- For every answer to `getUsers` in a reachable state, the page takes the row of its user for
its user exactly when the session's name is the name in that row and in none behind it. -/
theorem current_user_iff {σ : Config P} (reachable : Reachable P σ) {v : JsVal}
    {saved : Option SessionUser} (answered : .answered c (.json v) saved ∈ σ.world.log)
    (route : c.req.route = .getUsers) :
    ∃ u, ∃ members : List (Row UserCol), c.user = some u ∧ v = .arr [u.js, rowsJs members] ∧
      ∀ (currentTask : JsVal) (n : Int) (row : Row UserCol), u.user_id = some n → row ∈ members →
        row .user_id = .int n → members.countP (fun r => r .user_id = .int n) = 1 →
        (((Feed.start currentTask).loadUsers v).userObj = rowJs row ↔
          Recognised u members row) := by
  obtain ⟨u, members, user, rfl⟩ :=
    reachable.answers_meet handler_listsHouse c _ saved answered route v rfl
  exact ⟨u, members, user, rfl, fun currentTask n row _ _ _ _ => loadUsers_recognises currentTask⟩

/-- Session `sid` asks for the members of its house and is served at once. -/
def askMembers (sid : Nat) (σ : Config P) : Config P :=
  run (server P) [.arrive { sid, route := .getUsers }, .settle σ.pending.length false] σ

theorem askMembers_reachable {σ : Config P} (reachable : Reachable P σ) (sid : Nat) :
    Reachable P (askMembers sid σ) := by
  obtain ⟨ls, own, rfl⟩ := reachable
  rw [askMembers, ← run_append]
  refine ⟨_, ?_, rfl⟩
  simpa [Label.own, or_imp, forall_and] using own

theorem askMembers_answered {σ : Config P} (fresh : Fresh σ) {sid : Nat} {u : SessionUser}
    (stored : σ.world.store sid = some u) {h : Int} (house : u.houseID = some h) :
    ∃ c, c.req.route = .getUsers ∧ c.user = some u ∧
      .answered c (.json (.arr [u.js, rowsJs (usersInHouse P.collate h σ.world.db.tables)]))
        (some u) ∈ (askMembers sid σ).world.log := by
  let q : Request := { sid, route := .getUsers }
  have single : handler P (σ.world.context q) = .issue (.getUsersInHouse (some h))
      (thenRun fun rows => Prog.send (.json (.arr [u.js, rowsJs rows])) (some u)) .done := by
    have session : (σ.world.context q).user = some u := stored
    have asked : (σ.world.context q).req.route = .getUsers := rfl
    simp only [handler, OneRoof.route, asked, getUsers, withUser, session, attempt, house]
    rfl
  exact ⟨σ.world.context q, rfl, stored, fresh.serve_answered single rfl⟩

end Answers

/-- Somebody joins Ann's house, and Ann opens the page of the house. -/
def annIsVisited (displayName : String) : Config samplePlatform :=
  run (server samplePlatform) (annMoves ++
    [.arrive { sid := 1, route := .signup, body := .obj [("email", .str "ben@x"),
        ("password", .str "pw"), ("confirmPass", .str "pw"), ("displayName", .str displayName)] },
      .settle 0 false, .settle 0 false, .settle 0 false, .settle 0 false, .settle 0 false,
      .arrive { joinZeros with sid := 1 }, .settle 0 false, .settle 0 false,
      .arrive { sid := 0, route := .house }, .settle 0 false]) (startUp samplePlatform)

theorem annIsVisited_reachable (displayName : String) :
    Reachable samplePlatform (annIsVisited displayName) :=
  ⟨_, by simp [annMoves, Label.own], rfl⟩

/-- Whether Ann, who is one of the members, is the last that has the name of her session. -/
def FindsAnn (σ : Config samplePlatform) (found : Bool) : Prop :=
  (σ.world.store 0).any fun u =>
    let members := usersInHouse samplePlatform.collate 1 σ.world.db.tables
    u.houseID = some 1 ∧ u.user_id = some 1 ∧ (∃ row ∈ members, row .user_id = .int 1) ∧
      members.countP (fun row => row .user_id = .int 1) = 1 ∧
      (members.filter (Named u ·)).getLast?.any (fun row => row .user_id = .int 1) = found

instance (σ : Config samplePlatform) (found : Bool) : Decidable (FindsAnn σ found) :=
  inferInstanceAs (Decidable (_ = true))

/-- What Ann's page gets then. -/
theorem FindsAnn.asked {σ : Config samplePlatform} {found : Bool} (finds : FindsAnn σ found)
    (fresh : Fresh σ) : ∃ c u row, ∃ members : List (Row UserCol), c.req.route = .getUsers ∧
      c.user = some u ∧ .answered c (.json (.arr [u.js, rowsJs members])) (some u) ∈
        (askMembers 0 σ).world.log ∧
      u.user_id = some 1 ∧ row ∈ members ∧ row .user_id = .int 1 ∧
      members.countP (fun row => row .user_id = .int 1) = 1 ∧
      (Recognised u members row ↔ found = true) := by
  obtain ⟨u, stored, known⟩ := (Option.any_eq_true ..).mp finds
  obtain ⟨house, id, ⟨row, mem, hers⟩, once, last⟩ := of_decide_eq_true known
  obtain ⟨c, route, user, answered⟩ := askMembers_answered fresh stored house
  refine ⟨c, u, row, _, route, user, answered, id, mem, hers, once, ?_⟩
  rw [recognised_iff, ← last, Option.any_eq_true]
  constructor
  · intro found
    exact ⟨row, found, by simpa using hers⟩
  · rintro ⟨other, found, same⟩
    have listed := List.mem_of_mem_filter (List.mem_of_getLast? found)
    rw [found, eq_of_countP_le_one (Nat.le_of_eq once) listed mem same (by simpa using hers)]

/-- Ben has joined, and the page of Ann finds Ann. -/
theorem current_user_sample : ∃ v, ∃ row : Row UserCol, row .user_id = .int 1 ∧
    ((Feed.start .null).loadUsers v).userObj = rowJs row := by
  have reachable := annIsVisited_reachable "Ben"
  have finds : FindsAnn (annIsVisited "Ben") true := by decide +kernel
  obtain ⟨c, u, row, members, route, user, answered, id, mem, hers, once, recognised⟩ :=
    finds.asked reachable.fresh
  obtain ⟨u', members', user', same, page⟩ :=
    current_user_iff (askMembers_reachable reachable 0) answered route
  obtain rfl : u = u' := Option.some.inj (user.symm.trans user')
  have listed : members = members' := by
    refine List.map_injective_iff.mpr (fun _ _ => Feed.rowJs_inj) ?_
    simpa [rowsJs] using same
  subst listed
  exact ⟨_, row, hers, (page .null 1 row id mem hers once).mpr (recognised.mpr rfl)⟩

/-- Another Ann has joined, and is taken for the user of Ann's page. -/
theorem namesake_taken : ∃ σ, Reachable samplePlatform σ ∧ ∃ c u row,
    ∃ members : List (Row UserCol), c.req.route = .getUsers ∧ c.user = some u ∧
      .answered c (.json (.arr [u.js, rowsJs members])) (some u) ∈ σ.world.log ∧
      u.user_id = some 1 ∧ row ∈ members ∧ row .user_id = .int 1 ∧
      members.countP (fun row => row .user_id = .int 1) = 1 ∧
      ((Feed.start .null).loadUsers (.arr [u.js, rowsJs members])).userObj ≠ rowJs row := by
  have reachable := annIsVisited_reachable "Ann"
  have finds : FindsAnn (annIsVisited "Ann") false := by decide +kernel
  obtain ⟨c, u, row, members, route, user, answered, id, mem, hers, once, recognised⟩ :=
    finds.asked reachable.fresh
  refine ⟨_, askMembers_reachable reachable 0, c, u, row, members, route, user, answered, id, mem,
    hers, once, fun same => ?_⟩
  have taken := recognised.mp ((loadUsers_recognises .null).mp same)
  cases taken

end OneRoof
