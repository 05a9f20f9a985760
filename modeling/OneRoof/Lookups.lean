import OneRoof.Lib.Joins
import OneRoof.Secrets

/-!
# Statements over two databases

One statement is run over two databases that agree but for the credentials of others. A
look-up finds the same rows up to the credentials, as long as no credential is compared. A
write writes the same, and is refused on both sides or on none.
-/

namespace OneRoof

open Sql Async Async.Prog Prog

variable {P : Platform}

/-- A condition, if it is one, that reads no credential. -/
def Ignores {κ : Type} (secret : κ → Bool) (q : Option (Cond κ)) : Prop :=
  ∀ q' ∈ q, ∀ c ∈ q'.columns, secret c = false

def TaskJoinCol.secret : TaskJoinCol → Bool
  | .u c => c.secret
  | _ => false

/-- The statement compares no credential. An object in the place of a value names a column
that is compared. -/
def Stmt.Ignorant : Stmt → Prop
  | .getUser email => Ignores UserCol.secret
      (email.bare.bind fun v => whereEq (column "tblUSER") .email v.escape)
  | .getUserFB profileId => Ignores UserCol.secret
      (profileId.bare.bind fun v => whereEq (column "tblUSER") .facebook_id v.escape)
  | .getTasksForUser email status =>
    Ignores TaskJoinCol.secret (whereEq taskJoinColumn (.u .email) email.escape) ∧
      Ignores TaskJoinCol.secret (whereEq taskJoinColumn (.t .task_status) status.escape)
  | _ => True

section Statements

variable {a : Int}

theorem select_alike (collate : String → String) {q : Cond UserCol}
    {rows rows' : List (Row UserCol)} (ignores : ∀ c ∈ q.columns, c.secret = false)
    (same : rows.map (hideRow a) = rows'.map (hideRow a)) :
    (select collate q rows).map (hideRow a) = (select collate q rows').map (hideRow a) :=
  map_filter_congr same fun _ _ alike =>
    Cond.hits_congr collate fun c hc => hideRow_cell alike (ignores c hc)

/-- Tables that agree are the same but for `tblUSER`. -/
theorem hide_eq_iff {t t' : Tables} : t.hide a = t'.hide a ↔
    t.user.map (hideRow a) = t'.user.map (hideRow a) ∧ t' = { t with user := t'.user } := by
  cases t
  cases t'
  simp only [Tables.hide, Tables.mk.injEq, and_congr_right_iff, true_and]
  intro _
  constructor
  · rintro ⟨h1, h2, h3, h4, h5, h6, h7, h8, h9⟩
    exact ⟨h1.symm, h2.symm, h3.symm, h4.symm, h5.symm, h6.symm, h7.symm, h8.symm, h9.symm⟩
  · rintro ⟨h1, h2, h3, h4, h5, h6, h7, h8, h9⟩
    exact ⟨h1.symm, h2.symm, h3.symm, h4.symm, h5.symm, h6.symm, h7.symm, h8.symm, h9.symm⟩

/-- Only `tblUSER` is written. -/
theorem users_alike {db db' : Database P.collate} (agree : Agree a db db')
    {users users' : List (Row UserCol)} (same : users.map (hideRow a) = users'.map (hideRow a)) :
    Tables.hide a { db.tables with user := users } =
      Tables.hide a { db'.tables with user := users' } := by
  refine hide_eq_iff.mpr ⟨same, ?_⟩
  rw [(hide_eq_iff.mp agree.tables).2]

theorem commit_alike {t t' : Tables} (n : Counters) (same : t.hide a = t'.hide a)
    (typed : Typed t.user ↔ Typed t'.user) :
    Option.Rel (Agree a) (commit P.collate t n) (commit P.collate t' n) := by
  have ids : ∀ rows : List (Row UserCol), (rows.map (hideRow a)).map (· .user_id) =
      rows.map (· .user_id) := by
    intro rows
    rw [List.map_map]
    exact List.map_congr_left fun r _ => hideRow_user_id r
  have moves : ∀ {t t' : Tables}, t.hide a = t'.hide a → Typed t'.user →
      Integrity P.collate t → Integrity P.collate t' := by
    intro t t' same typed sound
    rw [(hide_eq_iff.mp same).2]
    exact integrity_users sound typed (by rw [← ids, ← (hide_eq_iff.mp same).1, ids])
  by_cases sound : Integrity P.collate t
  · have sound' := moves same (typed.mp sound.user_typed) sound
    rw [commit_of_sound n sound, commit_of_sound n sound']
    exact .some ⟨same, rfl⟩
  · have sound' : ¬ Integrity P.collate t' := fun h =>
      sound (moves same.symm (typed.mpr h.user_typed) h)
    rw [commit, commit, dif_neg sound, dif_neg sound']
    exact .none

/-- Alike replies, and databases that still agree. -/
def Outcomes (a : Int) (s : Stmt) (x y : Option (s.Reply × Database P.collate)) : Prop :=
  Option.Rel (fun x y => s.hide a x.1 = s.hide a y.1 ∧ Agree a x.2 y.2) x y

variable {db db' : Database P.collate} {s : Stmt}

theorem exec_other_alike (agree : Agree a db db') (plain : s.isSelect = false)
    (other : ∀ c v id, s.setsUser ≠ some (c, v, id)) (stays : ∀ user, s ≠ .createUser user) :
    Outcomes a s (exec P.collate s db) (exec P.collate s db') := by
  obtain ⟨t, n, sound⟩ := db
  obtain ⟨t', n', sound'⟩ := db'
  obtain ⟨same, next⟩ := agree
  obtain rfl : n = n' := next
  obtain ⟨rows, split⟩ := hide_eq_iff.mp same
  have typed : Typed t.user ↔ Typed t'.user := iff_of_true sound.user_typed sound'.user_typed
  generalize t'.user = users at rows split typed
  subst split
  have writes : ∀ (t₁ : Tables) (m : Counters), t₁.user = t.user → Option.Rel (Agree a)
      (commit P.collate t₁ m) (commit P.collate { t₁ with user := users } m) := by
    intro t₁ m kept
    rw [← kept] at rows typed
    exact commit_alike m (hide_eq_iff.mpr ⟨rows, rfl⟩) typed
  cases s with
  | createUser user => exact absurd rfl (stays user)
  | createHouse _ _ _ | createGroup _ _ | addUserToHouse _ _ | addUserToGroup _ _ | createTask _
  | updateUserTaskTable _ _ _ | updateChoreTable _ _ | addComment _ _ _ _ =>
    exact rel_bind_same fun row _ => rel_bind (writes _ _ rfl) fun _ _ agree => .some ⟨rfl, agree⟩
  | updateBillTable _ _ =>
    exact rel_bind_same fun amount _ => rel_bind_same fun row _ =>
      rel_bind (writes _ _ rfl) fun _ _ agree => .some ⟨rfl, agree⟩
  | removeUserHouse _ _ =>
    exact rel_bind (writes _ _ rfl) fun _ _ agree => .some ⟨rfl, agree⟩
  | removeTask _ _ =>
    simp only [Outcomes, exec, setTo_str, Option.bind_eq_bind, Option.bind_some]
    exact rel_bind_same fun q _ => rel_bind (writes _ _ rfl) fun _ _ agree => .some ⟨rfl, agree⟩
  | updateTask _ _ | deleteComment _ =>
    exact rel_bind_same fun set _ => rel_bind_same fun q _ =>
      rel_bind (writes _ _ rfl) fun _ _ agree => .some ⟨rfl, agree⟩
  | updateProfPic _ _ | updateUserDisplayName _ _ | updateUserPass _ _
  | updateUserPaymentMethod _ _ | updateUserPaymentUsername _ _ | updateMobile _ _ =>
    exact absurd rfl (other _ _ _)
  | _ => cases plain

theorem typed_update {rows : List (Row UserCol)} (typed : Typed rows) (collate : String → String)
    (q : Cond UserCol) (sets : List (UserCol × Rhs UserCol)) :
    Typed (update collate q sets rows) := by
  have undated : ∀ c : UserCol, Columns.type c ≠ .timestamp := by
    intro c
    cases c <;> decide
  intro r mem c _
  obtain ⟨old, there, rfl⟩ := List.mem_map.mp mem
  have fit : ∀ d, fits d (old d) = true := fun d => typed old there d (Columns.mem_all d)
  split
  · exact fits_assign collate undated sets fit c
  · exact fit c

/-- An update of the row of user `a` writes the same on both sides. -/
theorem update_alike (collate : String → String) {rows rows' : List (Row UserCol)}
    (typed : Typed rows) (same : rows.map (hideRow a) = rows'.map (hideRow a))
    (sets : List (UserCol × Rhs UserCol)) :
    (update collate (.eq .user_id (.num a)) sets rows).map (hideRow a) =
      (update collate (.eq .user_id (.num a)) sets rows').map (hideRow a) := by
  rw [update, update, List.map_map, List.map_map]
  rw [map_eq_map_iff_forall₂] at same
  induction same with
  | nil => rfl
  | @cons x y rows rows' alike _ ih =>
    have rest := ih fun r hr => typed r (List.mem_cons_of_mem x hr)
    rw [List.map_cons, List.map_cons, rest]
    have test : Cond.hits collate (.eq .user_id (.num a)) x =
        Cond.hits collate (.eq .user_id (.num a)) y :=
      Cond.hits_congr collate fun c hc => by
        rw [List.mem_singleton.mp hc]
        exact hideRow_cell alike rfl
    simp only [Function.comp_apply, ← test]
    split
    · rename_i hit
      obtain ⟨n, hn⟩ := int_cell (c := UserCol.user_id) rfl rfl typed List.mem_cons_self
      have own : x .user_id = .int a := by
        have equal : eqLit collate (x .user_id) (.num a) = some true := of_decide_eq_true hit
        rw [hn] at equal ⊢
        simpa [eqLit] using equal
      rw [hideRow_eq alike own]
    · rw [alike]

theorem exec_setsUser_alike (agree : Agree a db db') {c : UserCol} {v : JsVal}
    (writes : s.setsUser = some (c, v, some a)) :
    Outcomes a s (exec P.collate s db) (exec P.collate s db') := by
  have tables := fun sets => update_alike P.collate db.sound.user_typed
    (hide_eq_iff.mp agree.tables).1 sets
  have counts : (select P.collate (.eq .user_id (.num a)) db.tables.user).length =
      (select P.collate (.eq .user_id (.num a)) db'.tables.user).length := by
    have plain : ∀ c ∈ (Cond.eq UserCol.user_id (.num a)).columns, c.secret = false := by
      simp [Cond.columns, UserCol.secret]
    have rows := select_alike P.collate plain (hide_eq_iff.mp agree.tables).1
    simpa using congrArg List.length rows
  have commits : ∀ sets, Option.Rel (Agree a)
      (commit P.collate { db.tables with
        user := update P.collate (.eq .user_id (.num a)) sets db.tables.user } db.next)
      (commit P.collate { db'.tables with
        user := update P.collate (.eq .user_id (.num a)) sets db'.tables.user } db'.next) := by
    intro sets
    rw [← agree.next]
    refine commit_alike _ (users_alike agree (tables sets)) (iff_of_true ?_ ?_)
    · exact typed_update db.sound.user_typed _ _ _
    · exact typed_update db'.sound.user_typed _ _ _
  have set : Option.Rel (fun x y => x.1 = y.1 ∧ Agree a x.2 y.2)
      (setUser P.collate c v (some a) db) (setUser P.collate c v (some a) db') :=
    rel_bind_same fun sets _ => rel_bind (commits sets) fun d d' agree =>
      .some ⟨by simp [idLit, counts], agree⟩
  cases s <;> cases writes <;> exact set

theorem exec_createUser_alike (agree : Agree a db db') (user : NewUser) :
    Outcomes a (.createUser user) (exec P.collate (.createUser user) db)
      (exec P.collate (.createUser user) db') := by
  have rows := (hide_eq_iff.mp agree.tables).1
  have commits : ∀ (row : Row UserCol) (n : Counters), Option.Rel (Agree a)
      (commit P.collate { db.tables with user := db.tables.user ++ [row] } n)
      (commit P.collate { db'.tables with user := db'.tables.user ++ [row] } n) := by
    intro row n
    refine commit_alike n (users_alike agree ?_) ?_
    · rw [List.map_append, List.map_append, rows]
    · have typed : ∀ d : Database P.collate, Typed (d.tables.user ++ [row]) ↔ Typed [row] := by
        intro d
        constructor
        · exact fun h r mem => h r (List.mem_append_right _ mem)
        · intro h r mem
          rcases List.mem_append.mp mem with old | new
          · exact d.sound.user_typed r old
          · exact h r new
      exact (typed db).trans (typed db').symm
  simp only [exec, ← agree.next]
  exact rel_bind_same fun row _ => rel_bind (commits row _) fun _ _ agree => .some ⟨rfl, agree⟩

theorem selectUser_alike (agree : Agree a db db') {c : UserCol} {v : JsVal}
    (ignores : Ignores UserCol.secret
      (v.bare.bind fun v => whereEq (column "tblUSER") c v.escape)) :
    Option.Rel (fun x y => x.1.map (hideRow a) = y.1.map (hideRow a) ∧ Agree a x.2 y.2)
      (selectUser P.collate c v db) (selectUser P.collate c v db') := by
  refine rel_bind_same fun v' given => rel_bind_same fun q parsed => .some ⟨?_, agree⟩
  have reads : q ∈ v.bare.bind fun v => whereEq (column "tblUSER") c v.escape :=
    Option.bind_eq_some_iff.mpr ⟨v', given, parsed⟩
  exact select_alike P.collate (ignores q reads) (hide_eq_iff.mp agree.tables).1

theorem usersInHouse_alike (agree : Agree a db db') (h : Int) :
    (usersInHouse P.collate h db.tables).map (hideRow a) =
      (usersInHouse P.collate h db'.tables).map (hideRow a) := by
  have tells : ∀ (d : Database P.collate) (f : Row UserCol → List (Row HouseUserCol)),
      ∀ x ∈ d.tables.user.flatMap fun u => (f u).map fun _ => u,
      ∀ y ∈ d.tables.user.flatMap fun u => (f u).map fun _ => u,
      hideRow a x = hideRow a y → x = y := by
    intro d f x hx y hy same
    obtain ⟨u, hu, mem⟩ := List.mem_flatMap.mp hx
    obtain ⟨-, -, rfl⟩ := List.mem_map.mp mem
    obtain ⟨v, hv, mem⟩ := List.mem_flatMap.mp hy
    obtain ⟨-, -, rfl⟩ := List.mem_map.mp mem
    exact d.sound.user_key.eq_of_number ⟨rfl, rfl⟩ d.sound.user_typed hu hv (hideRow_cell same rfl)
  obtain ⟨rows, split⟩ := hide_eq_iff.mp agree.tables
  rw [usersInHouse, usersInHouse, map_dedup (tells db _), map_dedup (tells db' _), List.map_flatMap,
    List.map_flatMap]
  congr 1
  refine flatMap_congr rows fun x _ y same => ?_
  have id : x .user_id = y .user_id := hideRow_cell same rfl
  have members : db'.tables.houseUser = db.tables.houseUser := by rw [split]
  simp [id, members, same]

theorem houseGroups_alike (agree : Agree a db db') (houseID : Option Int) :
    (houseGroups P.collate houseID db.tables).map (hideMember a) =
      (houseGroups P.collate houseID db'.tables).map (hideMember a) := by
  obtain ⟨rows, split⟩ := hide_eq_iff.mp agree.tables
  have groups : db'.tables.userGroups = db.tables.userGroups := by rw [split]
  have members : db'.tables.houseUser = db.tables.houseUser := by rw [split]
  have named : db'.tables.group = db.tables.group := by rw [split]
  simp only [houseGroups, List.map_flatMap, groups, members, named]
  refine List.flatMap_congr fun ug _ => flatMap_congr rows fun x hx y same => ?_
  have id : x .user_id = y .user_id := hideRow_cell same rfl
  refine List.flatMap_congr fun hu _ => ?_
  rw [List.map_map, List.map_map, ← id]
  refine List.map_congr_left fun g mem => ?_
  have matched : eqValue P.collate (hu .user_id) (x .user_id) = some true :=
    (of_decide_eq_true (List.mem_filter.mp mem).2).2.1
  simp only [Function.comp_apply, hideMember]
  by_cases own : hu .user_id = .int a
  · obtain ⟨n, hn⟩ := int_cell (c := UserCol.user_id) rfl rfl db.sound.user_typed hx
    have equal : x .user_id = .int a := by
      rw [own, hn] at matched
      rw [hn]
      simpa [eqValue, eq_comm] using matched
    rw [if_pos own, if_pos own, hideRow_eq same equal]
  · rw [if_neg own, if_neg own, ← veiled_hideRow (a := a), same, veiled_hideRow]

theorem tasksForUser_alike (agree : Agree a db db') {q q' : Cond TaskJoinCol}
    (ignores : ∀ c ∈ q.columns, c.secret = false)
    (ignores' : ∀ c ∈ q'.columns, c.secret = false) :
    (tasksForUser P.collate q q' db.tables).map (fun r => (hideRow a r.1, r.2)) =
      (tasksForUser P.collate q q' db'.tables).map (fun r => (hideRow a r.1, r.2)) := by
  obtain ⟨rows, split⟩ := hide_eq_iff.mp agree.tables
  have links : db'.tables.userTask = db.tables.userTask := by rw [split]
  have named : db'.tables.task = db.tables.task := by rw [split]
  simp only [tasksForUser, List.map_flatMap, links, named]
  refine flatMap_congr rows fun x _ y same => ?_
  have id : x .user_id = y .user_id := hideRow_cell same rfl
  have cells : ∀ ut k (c : TaskJoinCol), c.secret = false →
      taskJoinRow x ut k c = taskJoinRow y ut k c := by
    intro ut k c plain
    cases c with
    | u c => exact hideRow_cell same plain
    | ut c => rfl
    | t c => rfl
  have tests : ∀ ut k {q : Cond TaskJoinCol}, (∀ c ∈ q.columns, c.secret = false) →
      q.hits P.collate (taskJoinRow x ut k) = q.hits P.collate (taskJoinRow y ut k) :=
    fun ut k _ ignores => Cond.hits_congr P.collate fun c hc => cells ut k c (ignores c hc)
  refine List.flatMap_congr fun ut _ => ?_
  simp only [List.map_map, id, fun k => tests ut k ignores, fun k => tests ut k ignores']
  refine List.map_congr_left fun k _ => ?_
  simp only [Function.comp_apply, same]

/-- A look-up changes nothing, and shows the same but for the credentials. -/
theorem exec_select_alike (agree : Agree a db db') (reads : s.isSelect = true)
    (ignorant : s.Ignorant) : Outcomes a s (exec P.collate s db) (exec P.collate s db') := by
  have split := (hide_eq_iff.mp agree.tables).2
  cases s with
  | getUser email => exact selectUser_alike agree ignorant
  | getUserFB profileId => exact selectUser_alike agree ignorant
  | getUsersInHouse houseID =>
    cases houseID with
    | none => exact .none
    | some h => exact .some ⟨usersInHouse_alike agree h, agree⟩
  | getHouseGroups houseID => exact .some ⟨houseGroups_alike agree houseID, agree⟩
  | getTasksForUser email status =>
    exact rel_bind_same fun q hq => rel_bind_same fun q' hq' =>
      .some ⟨tasksForUser_alike agree (ignorant.1 q hq) (ignorant.2 q' hq'), agree⟩
  | getHouse userId =>
    have members : db'.tables.houseUser = db.tables.houseUser := by rw [split]
    exact .some ⟨by simp [members], agree⟩
  | getHouseWithCode houseCode =>
    have houses : db'.tables.house = db.tables.house := by rw [split]
    exact rel_bind_same fun q _ => .some ⟨by simp [selectHouse, houses], agree⟩
  | getHouseWithID _ | getHouseCode _ =>
    have houses : db'.tables.house = db.tables.house := by rw [split]
    exact .some ⟨by simp [selectHouse, houses], agree⟩
  | getUserGroups id =>
    have links : db'.tables.userGroups = db.tables.userGroups := by rw [split]
    have groups : db'.tables.group = db.tables.group := by rw [split]
    exact .some ⟨by simp [userGroups, links, groups], agree⟩
  | getComment task_id =>
    have comments : db'.tables.comment = db.tables.comment := by rw [split]
    exact rel_bind_same fun v _ => rel_bind_same fun q _ => .some ⟨by simp [comments], agree⟩
  | _ => cases reads

/-- Statements that compare no credential, and write no user but `a`, tell nothing. -/
theorem exec_alike (agree : Agree a db db') (ignorant : s.Ignorant)
    (own : ∀ c v id, s.setsUser = some (c, v, id) → id = some a) :
    Outcomes a s (exec P.collate s db) (exec P.collate s db') := by
  by_cases reads : s.isSelect = true
  · exact exec_select_alike agree reads ignorant
  · by_cases sets : ∃ c v id, s.setsUser = some (c, v, id)
    · obtain ⟨c, v, id, writes⟩ := sets
      obtain rfl := own c v id writes
      exact exec_setsUser_alike agree writes
    · by_cases creates : ∃ user, s = .createUser user
      · obtain ⟨user, rfl⟩ := creates
        exact exec_createUser_alike agree user
      · exact exec_other_alike agree (Bool.eq_false_iff.mpr reads)
          (fun c v id h => sets ⟨c, v, id, h⟩) fun user h => creates ⟨user, h⟩

end Statements

end OneRoof
