import OneRoof.Isolation
import OneRoof.Lib.Pairs

/-!
# What the answers tell about the credentials of others

Two databases that differ only in the credentials of users other than one are served the
same requests of that user. The look-ups select whole rows of `tblUSER`, so the answers
that list users show the difference; it shows in these fields of these rows and nowhere
else, as long as nobody compares the credentials.
-/

namespace OneRoof

open Sql Async Async.Prog Prog

variable {P : Platform}

/-- The columns that let somebody in as the user of the row. -/
def UserCol.secret : UserCol → Bool
  | .hash_pass | .facebook_token => true
  | _ => false

def veiled (r : Row UserCol) : Row UserCol := fun c => if c.secret then .null else r c

/-- The row without its credentials, unless it is the row of user `a`. -/
def hideRow (a : Int) (r : Row UserCol) : Row UserCol := if r .user_id = .int a then r else veiled r

def Tables.hide (a : Int) (t : Tables) : Tables := { t with user := t.user.map (hideRow a) }

/-- Equal but for the credentials of users other than `a`. -/
structure Agree (a : Int) (db db' : Database P.collate) : Prop where
  tables : db.tables.hide a = db'.tables.hide a
  next : db.next = db'.next

/-- A row of a join is the row of the user its `user_id` names. -/
def hideMember (a : Int) (m : Row UserGroupCol × Row UserCol × Row HouseUserCol × Row GroupCol) :
    Row UserGroupCol × Row UserCol × Row HouseUserCol × Row GroupCol :=
  (m.1, if m.2.2.1 .user_id = .int a then m.2.1 else veiled m.2.1, m.2.2)

def Stmt.hide (a : Int) : (s : Stmt) → s.Reply → s.Reply
  | .getUser _, rows => rows.map (hideRow a)
  | .getUserFB _, rows => rows.map (hideRow a)
  | .getUsersInHouse _, rows => rows.map (hideRow a)
  | .getHouseGroups _, rows => rows.map (hideMember a)
  | .getTasksForUser _ _, rows => rows.map fun r => (hideRow a r.1, r.2)
  | _, r => r

/-- The fields of a credential, in an object the server sends. -/
def veiledField (f : String × JsVal) : String × JsVal :=
  if f.1 = "hash_pass" ∨ f.1 = "facebook_token" then (f.1, .null) else f

/-- An object about user `a`. -/
def JsVal.isAbout (a : Int) (v : JsVal) : Bool :=
  match v.get "user_id" with
  | .num n => n = a
  | _ => false

mutual

/-- A body without the credentials of users other than `a`. -/
def JsVal.hide (a : Int) : JsVal → JsVal
  | .arr items => .arr (JsVal.hideAll a items)
  | .obj fields =>
    if (JsVal.obj fields).isAbout a then .obj fields else .obj (fields.map veiledField)
  | v => v

def JsVal.hideAll (a : Int) : List JsVal → List JsVal
  | [] => []
  | v :: vs => v.hide a :: JsVal.hideAll a vs

end

def Answer.hide (a : Int) : Answer → Answer
  | .json v => .json (v.hide a)
  | answer => answer

section Bodies

variable {a : Int}

@[simp] theorem hideAll_eq_map (l : List JsVal) : JsVal.hideAll a l = l.map (JsVal.hide a) := by
  induction l with
  | nil => rfl
  | cons v l ih => simp [JsVal.hideAll, ih]

@[simp] theorem hideRow_user_id (r : Row UserCol) : hideRow a r .user_id = r .user_id := by
  unfold hideRow
  split <;> rfl

theorem hideRow_own {r : Row UserCol} (own : r .user_id = .int a) : hideRow a r = r := if_pos own

theorem veiled_hideRow (r : Row UserCol) : veiled (hideRow a r) = veiled r := by
  unfold hideRow
  split
  · rfl
  · funext c
    cases c <;> rfl

/-- Rows that agree have the same columns but for the credentials. -/
theorem hideRow_cell {r r' : Row UserCol} (same : hideRow a r = hideRow a r') {c : UserCol}
    (plain : c.secret = false) : r c = r' c := by
  have cell : ∀ r : Row UserCol, hideRow a r c = r c := by
    intro r
    unfold hideRow
    split
    · rfl
    · simp [veiled, plain]
  rw [← cell r, same, cell]

/-- The row of user `a` is the same in both. -/
theorem hideRow_eq {r r' : Row UserCol} (same : hideRow a r = hideRow a r')
    (own : r .user_id = .int a) : r = r' := by
  have own' : r' .user_id = .int a := (hideRow_cell (c := .user_id) same rfl).symm.trans own
  rw [← hideRow_own own, same, hideRow_own own']

theorem isAbout_cell {fields : List (String × JsVal)} {v : Value}
    (named : (JsVal.obj fields).get "user_id" = cellJs v) :
    (JsVal.obj fields).isAbout a = true ↔ v = .int a := by
  cases v <;> simp [JsVal.isAbout, named, cellJs]

theorem fieldsOf_veiled (r : Row UserCol) : (fieldsOf r).map veiledField = fieldsOf (veiled r) := by
  simp [fieldsOf, Columns.all, Columns.name, veiledField, veiled, UserCol.secret, cellJs]

/-- An object that names a user is shown whole to that user only. -/
theorem hide_object {fields : List (String × JsVal)} {v : Value}
    (named : (JsVal.obj fields).get "user_id" = cellJs v) :
    (JsVal.obj fields).hide a =
      .obj (if v = .int a then fields else fields.map veiledField) := by
  have about := isAbout_cell (a := a) named
  rw [JsVal.hide]
  by_cases own : v = .int a
  · rw [if_pos (about.mpr own), if_pos own]
  · rw [if_neg (fun h => own (about.mp h)), if_neg own]

theorem hide_row (r : Row UserCol) : (rowJs r).hide a = rowJs (hideRow a r) := by
  have named : (JsVal.obj (fieldsOf r)).get "user_id" = cellJs (r .user_id) := by
    simp [fieldsOf, Columns.all, Columns.name, JsVal.get]
  rw [rowJs, hide_object named, fieldsOf_veiled, rowJs, hideRow]
  split <;> rfl

theorem veiledField_name (f : String × JsVal) : (veiledField f).1 = f.1 := by
  unfold veiledField
  split <;> rfl

theorem joined_veiled (first second : List (String × JsVal)) :
    (joined first second).map veiledField =
      joined (first.map veiledField) (second.map veiledField) := by
  have names : ∀ f, (second.map veiledField).all (fun g => decide (g.1 ≠ (veiledField f).1)) =
      second.all (fun g => decide (g.1 ≠ f.1)) := by
    intro f
    rw [List.all_map, veiledField_name]
    congr 1
    funext g
    rw [Function.comp_apply, veiledField_name]
  rw [joined, joined, List.map_append, List.filter_map]
  congr 3
  funext f
  exact (names f).symm

/-- Tables without such a column are shown as they are. -/
theorem fieldsOf_plain {κ : Type} [Columns κ]
    (plain : ∀ c : κ, Columns.name c ≠ "hash_pass" ∧ Columns.name c ≠ "facebook_token")
    (r : Row κ) : (fieldsOf r).map veiledField = fieldsOf r := by
  rw [fieldsOf, List.map_map]
  refine List.map_congr_left fun c _ => ?_
  simp [veiledField, plain c]

theorem hide_houseGroups
    (rows : List (Row UserGroupCol × Row UserCol × Row HouseUserCol × Row GroupCol)) :
    (houseGroupsJs rows).hide a = houseGroupsJs (rows.map (hideMember a)) := by
  simp only [houseGroupsJs, JsVal.hide, hideAll_eq_map, List.map_map]
  congr 1
  refine List.map_congr_left fun m _ => ?_
  simp only [Function.comp_apply]
  rw [hide_object (v := m.2.2.1 .user_id)
    (by simp [joined, fieldsOf, Columns.all, Columns.name, JsVal.get]), hideMember]
  by_cases own : m.2.2.1 .user_id = .int a
  · rw [if_pos own, if_pos own]
  · simp only [if_neg own, joined_veiled, fieldsOf_veiled]
    rw [fieldsOf_plain (κ := UserGroupCol) (by intro c; cases c <;> simp [Columns.name]),
      fieldsOf_plain (κ := HouseUserCol) (by intro c; cases c <;> simp [Columns.name]),
      fieldsOf_plain (κ := GroupCol) (by intro c; cases c <;> simp [Columns.name])]

theorem hide_taskRows (rows : List (Row UserCol × Row UserTaskCol × Row TaskCol)) :
    (taskRowsJs rows).hide a = taskRowsJs (rows.map fun r => (hideRow a r.1, r.2)) := by
  simp only [taskRowsJs, JsVal.hide, hideAll_eq_map, List.map_map]
  congr 1
  refine List.map_congr_left fun r _ => ?_
  simp only [Function.comp_apply]
  rw [hide_object (v := r.1 .user_id)
    (by simp [joined, fieldsOf, Columns.all, Columns.name, JsVal.get]), hideRow]
  by_cases own : r.1 .user_id = .int a
  · rw [if_pos own, if_pos own]
  · simp only [if_neg own, joined_veiled, fieldsOf_veiled]
    rw [fieldsOf_plain (κ := UserTaskCol) (by intro c; cases c <;> simp [Columns.name]),
      fieldsOf_plain (κ := TaskCol) (by intro c; cases c <;> simp [Columns.name])]

theorem hide_rows (rows : List (Row UserCol)) :
    (rowsJs rows).hide a = rowsJs (rows.map (hideRow a)) := by
  simp [rowsJs, JsVal.hide, hide_row]

theorem hide_first (rows : List (Row UserCol)) :
    (firstJs rows).hide a = firstJs (rows.map (hideRow a)) := by
  cases rows with
  | nil => rfl
  | cons r rows => exact hide_row r

end Bodies

/-- The row that a look-up for a session finds first. -/
def Stmt.found : (s : Stmt) → s.Reply → Option (Row UserCol)
  | .getUser _, rows => rows.head?
  | _, _ => none

def Act.hide (a : Int) : Act → Act
  | .send answer user => .send (answer.hide a) user
  | .compareSync _ => .compareSync .null
  | .push entry total => .push (entry.hide a) total
  | .sendGathered user => .sendGathered user

/-- The body of an answer, with the number of its request. -/
def Event.body : Event → Option (Nat × Answer)
  | .answered c answer _ => some (c.rid, answer)
  | _ => none

def World.bodies (w : World P) : List (Nat × Answer) := w.log.filterMap Event.body

/-- The bodies without the credentials of users other than `a`. -/
def World.hiddenBodies (a : Int) (w : World P) : List (Nat × Answer) :=
  w.bodies.map fun b => (b.1, b.2.hide a)

/-- Worlds that user `a` cannot tell apart but by the credentials that are shown. -/
structure World.Alike (a : Int) (w w' : World P) : Prop where
  db : Agree a w.db w'.db
  store : w.store = w'.store
  bodies : w.hiddenBodies a = w'.hiddenBodies a
  gathered : ∀ rid, (w.gathered rid).map (JsVal.hide a) = (w'.gathered rid).map (JsVal.hide a)
  nextReq : w.nextReq = w'.nextReq

/-- A change of password reads the credentials of the row it has found. -/
def secrecy (P : Platform) (a : Int) : Likeness Stmt Stmt.Reply Act Ctx (World P) where
  reply c s r r' := s.hide a r = s.hide a r' ∧
    (c.req.route = .updatePass → ∀ row ∈ s.found r, row .user_id = .int a)
  action x x' := x.hide a = x'.hide a
  world := World.Alike a

section Actions

variable {a : Int} {w w' : World P}

theorem answers_hidden (w : World P) (a : Int) (rid : Nat) :
    w.log.any (Event.answers rid) = (w.hiddenBodies a).any (fun b => b.1 = rid) := by
  rw [World.hiddenBodies, World.bodies, List.any_map]
  induction w.log with
  | nil => rfl
  | cons e log ih =>
    rw [List.any_cons, ih]
    cases e <;> simp [Event.answers, Event.body]

theorem World.Alike.logged (alike : w.Alike a w') (e e' : Event)
    (silent : e.body = none) (silent' : e'.body = none) :
    World.Alike a { w with log := w.log ++ [e] } { w' with log := w'.log ++ [e'] } := by
  refine ⟨alike.db, alike.store, ?_, alike.gathered, alike.nextReq⟩
  simpa [World.hiddenBodies, World.bodies, silent, silent'] using alike.bodies

theorem World.Alike.answer (alike : w.Alike a w') (c : Ctx) {x x' : Answer}
    (same : x.hide a = x'.hide a) (user : Option SessionUser) :
    (w.answer c x user).1 = (w'.answer c x' user).1 ∧
      World.Alike a (w.answer c x user).2 (w'.answer c x' user).2 := by
  have ended : w.log.any (Event.answers c.rid) = w'.log.any (Event.answers c.rid) := by
    rw [answers_hidden w a, answers_hidden w' a, alike.bodies]
  unfold World.answer
  rw [ended]
  split
  · exact ⟨rfl, alike⟩
  · refine ⟨rfl, alike.db, ?_, ?_, alike.gathered, alike.nextReq⟩
    · rw [alike.store]
    · have bodies := alike.bodies
      simp only [World.hiddenBodies, World.bodies] at bodies
      simp [World.hiddenBodies, World.bodies, Event.body, bodies, same]

theorem World.Alike.pushed (alike : w.Alike a w') (c : Ctx) {entry entry' : JsVal}
    (same : entry.hide a = entry'.hide a) (total : Nat) :
    (World.perform c (.push entry total) w).1 = (World.perform c (.push entry' total) w').1 ∧
      World.Alike a (World.perform c (.push entry total) w).2
        (World.perform c (.push entry' total) w').2 := by
  have lists := alike.gathered c.rid
  have lengths : (w.gathered c.rid).length = (w'.gathered c.rid).length := by
    simpa using congrArg List.length lists
  refine ⟨by simp [World.perform, lengths], alike.db, alike.store, alike.bodies, fun rid => ?_,
    alike.nextReq⟩
  by_cases here : rid = c.rid
  · rw [here]
    simp [World.perform, lists, same]
  · simp [World.perform, here, alike.gathered rid]

theorem perform_alike (c : Ctx) {x x' : Act} (same : x.hide a = x'.hide a)
    (alike : w.Alike a w') :
    (World.perform c x w).1 = (World.perform c x' w').1 ∧
      World.Alike a (World.perform c x w).2 (World.perform c x' w').2 := by
  cases x with
  | send answer user =>
    cases x' with
    | send answer' user' =>
      obtain ⟨hidden, rfl⟩ := Act.send.inj same
      exact alike.answer c hidden user
    | _ => exact Act.noConfusion same
  | compareSync hash =>
    cases x' with
    | compareSync hash' => exact ⟨rfl, alike.logged _ _ rfl rfl⟩
    | _ => exact Act.noConfusion same
  | push entry total =>
    cases x' with
    | push entry' total' =>
      obtain ⟨hidden, rfl⟩ := Act.push.inj same
      exact alike.pushed c hidden total
    | _ => exact Act.noConfusion same
  | sendGathered user =>
    cases x' with
    | sendGathered user' =>
      obtain rfl := Act.sendGathered.inj same
      refine alike.answer c ?_ user
      simp [Answer.hide, JsVal.hide, alike.gathered c.rid]
    | _ => exact Act.noConfusion same

theorem secrecy_respects (P : Platform) (a : Int) : (secrecy P a).Respects (server P) where
  perform same alike := perform_alike _ same alike
  refuse alike := alike.logged _ _ rfl rfl

end Actions

end OneRoof
