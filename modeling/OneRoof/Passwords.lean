import OneRoof.Profiles

/-!
# Changes of a password

`updatePass` compares the old password with the hash it has read, and writes the new
hash by user id, without a condition on the hash that is there by then. A change is
applied while the old password still holds as long as no other change of the same
account is under way when it is written.
-/

namespace OneRoof

open Sql Async Async.Prog Prog

variable {P : Platform}

/-- The row of user `n` has a hash that the old password of the request fits. -/
def Verifies (P : Platform) (db : Database P.collate) (n : Int) (c : Ctx) : Prop :=
  ∃ row ∈ db.tables.user, row .user_id = .int n ∧
    isValidPassword P (row .hash_pass) (c.req.body.get "oldPass") = some true

/-- Only plain requests arrive, and when the new hash of an account is written no other
one for that account is in flight. -/
def WritesAlone (σ : Config P) : Label P → Prop
  | .arrive q => q.Plain
  | .settle i _ => ∀ p ∈ σ.pending[i]?, ∀ pass id, p.stmt = .updateUserPass pass id →
      ∀ p' ∈ σ.pending.eraseIdx i, ∀ pass', p'.stmt ≠ .updateUserPass pass' id
  | .disturb _ => False

/-- A new hash is written while the one that is there fits the old password. -/
def ComparesAndSets (σ : Config P) (l : Label P) : Prop :=
  ∀ i p r db pass id, l = .settle i false → σ.pending[i]? = some p →
    p.stmt = .updateUserPass pass id → exec P.collate p.stmt σ.world.db = some (r, db) →
    ∃ n, id = some n ∧ Verifies P σ.world.db n p.ctx

/-- Every new hash in flight was checked against the one that is still there. -/
structure Checked (σ : Config P) : Prop where
  holds : (identity P).Holds σ
  parts : Parts σ
  verified : ∀ p ∈ σ.pending, ∀ pass id, p.stmt = .updateUserPass pass id →
    ∃ n, id = some n ∧ Verifies P σ.world.db n p.ctx

theorem Sends.password {c : Ctx} {pass : String} {id : Option Int}
    (sends : Sends P c (.updateUserPass pass id)) : c.req.route = .updatePass := by
  cases sends with
  | select reads => cases reads
  | updateUserPass route => exact route

/-- Any statement but a new hash for the same account leaves the hash. -/
theorem Verifies.exec {c c' : Ctx} {s : Stmt} {db db' : Database P.collate} {r : s.Reply} {n : Int}
    (verifies : Verifies P db n c) (lawful : Lawful P c' s db.tables.accounts)
    (he : exec P.collate s db = some (r, db')) (other : ∀ pass, s ≠ .updateUserPass pass (some n)) :
    Verifies P db' n c := by
  obtain ⟨row, hr, hn, valid⟩ := verifies
  have unhashed : ∀ v, s.setsUser ≠ some (.hash_pass, v, some n) := by
    intro v writes
    obtain ⟨-, -, -, password⟩ := lawful.sends.updates lawful.plain writes
    obtain ⟨-, pass, rfl⟩ := password rfl
    exact other pass rfl
  refine ⟨_, row_exec lawful he hr hn, ?_, ?_⟩
  · rw [rewrites_id]
    exact hn
  · rw [rewrites_kept unhashed]
    exact valid

/-- What the look-up of a password route grants was checked just now. -/
theorem grants_verified {c : Ctx} {u : SessionUser} {db : Database P.collate}
    (named : Identified P.collate db.tables.accounts u) {rows : List (Row UserCol)}
    (he : exec P.collate (.getUser u.email) db = some (rows, db)) {pass : String}
    {id : Option Int} (granted : grants P c u rows = some (.updateUserPass pass id)) :
    ∃ n, id = some n ∧ Verifies P db n c := by
  unfold grants at granted
  split at granted
  case h_5 =>
    obtain ⟨row, head, granted⟩ := Option.bind_eq_some_iff.mp granted
    obtain ⟨valid, check, granted⟩ := Option.bind_eq_some_iff.mp granted
    obtain ⟨n, hn, mem, own⟩ := own_row_first named he head
    cases valid with
    | false => cases granted
    | true =>
      obtain ⟨text, -, granted⟩ := Option.bind_eq_some_iff.mp granted
      cases granted
      exact ⟨n, hn, row, mem, own, check⟩
  all_goals
    first
    | cases granted
    | (split at granted <;> cases granted)

theorem arrive_verified {q : Request} {σ : Config P} (checked : Checked σ)
    (holds : (identity P).Holds (step (server P) (.arrive q) σ)) :
    ∀ p ∈ (step (server P) (.arrive q) σ).pending, ∀ pass id,
      p.stmt = .updateUserPass pass id →
      ∃ n, id = some n ∧ Verifies P σ.world.db n p.ctx := by
  intro p hp pass id hs
  have sends := (holds.2 p hp).1.sends
  rw [hs] at sends
  rw [arrive_eq] at hp
  rcases mem_enter hp with old | ⟨hc, new⟩
  · exact checked.verified p old pass id hs
  · have route : (σ.world.context q).req.route = .updatePass := hc ▸ sends.password
    have reads := handler_looks (by rw [route]; nofun) (by rw [route]; nofun) _ p new
    rw [hs] at reads
    cases reads

/-- The callback of a password route sends a new hash only after the check. -/
theorem callback_verified {σ : Config P} (checked : Checked σ)
    {p p' : Pending Stmt Stmt.Reply Act Ctx} (hp : p ∈ σ.pending) {r : p.stmt.Reply}
    {db : Database P.collate} (he : exec P.collate p.stmt σ.world.db = some (r, db))
    {w : World P} (new : p' ∈ (enter (server P) p.ctx (p.k (some r)) ⟨w, []⟩).pending)
    (route : p.ctx.req.route = .updatePass) {pass : String} {id : Option Int}
    (hs : p'.stmt = .updateUserPass pass id) :
    ∃ n, id = some n ∧ Verifies P db n p.ctx := by
  have part := checked.parts p hp (by rw [route]; nofun)
  have lawful := (checked.holds.2 p hp).1
  cases part with
  | loose c s => cases new
  | @look c u k user starts =>
    have same : db = σ.world.db := exec_select rfl he
    subst same
    change p' ∈ (enter (server P) c (k (some r)) ⟨w, []⟩).pending at new
    rw [enter_starts (starts (some r)), List.nil_append, Option.mem_toList,
      Option.map_eq_some_iff] at new
    obtain ⟨stmt, granted, rfl⟩ := new
    cases hs
    exact grants_verified (lawful.session u user) he granted

theorem refused_starts {p : Pending Stmt Stmt.Reply Act Ctx} (part : Part P p) :
    (p.k none).Starts none := by
  cases part with
  | loose => rfl
  | look user starts => exact starts none

theorem settle_verified {i : Nat} {lost : Bool} {σ : Config P} (checked : Checked σ)
    (alone : WritesAlone σ (.settle i lost))
    (holds : (identity P).Holds (settle (server P) i lost σ)) :
    ∀ p ∈ (settle (server P) i lost σ).pending, ∀ pass id, p.stmt = .updateUserPass pass id →
      ∃ n, id = some n ∧ Verifies P (settle (server P) i lost σ).world.db n p.ctx := by
  intro p' hp' pass id hs
  have sends := (holds.2 p' hp').1.sends
  rw [hs] at sends
  have route := sends.password
  rcases server_settle_cases i lost σ with same | ⟨p, hp, ⟨step, -⟩ | ⟨r, db, rfl, he, step⟩⟩
  · rw [same] at hp' ⊢
    exact checked.verified p' hp' pass id hs
  · rw [step] at hp' ⊢
    rw [enter_db]
    rcases mem_enter hp' with old | ⟨hc, new⟩
    · exact checked.verified p' (List.mem_of_mem_eraseIdx old) pass id hs
    · have part := checked.parts p (List.mem_of_getElem? hp) (by rw [← hc, route]; nofun)
      rw [enter_starts (refused_starts part)] at new
      cases new
  · have mem := List.mem_of_getElem? hp
    rw [step] at hp' ⊢
    rw [enter_db]
    rcases mem_enter hp' with old | ⟨hc, new⟩
    · obtain ⟨n, rfl, verifies⟩ := checked.verified p' (List.mem_of_mem_eraseIdx old) pass id hs
      refine ⟨n, rfl, verifies.exec (checked.holds.2 p mem).1 he fun pass' hw => ?_⟩
      exact alone p hp pass' (some n) hw p' old pass hs
    · rw [hc] at route ⊢
      exact callback_verified checked mem he new route hs

theorem step_checked (σ : Config P) (l : Label P) (alone : WritesAlone σ l) (checked : Checked σ) :
    Checked (step (server P) l σ) := by
  have plain : PlainLabel P l := by
    cases l with
    | arrive q => exact .arrive alone
    | settle i lost => exact .settle i lost
    | disturb db => exact absurd alone id
  have holds := (Discipline.step_holds l (plain_admits plain) σ checked.holds).1
  refine ⟨holds, step_parts l σ checked.parts, ?_⟩
  cases l with
  | arrive q =>
    intro p hp pass id hs
    obtain ⟨n, own, verifies⟩ := arrive_verified checked holds p hp pass id hs
    refine ⟨n, own, ?_⟩
    rw [arrive_eq, enter_db]
    exact verifies
  | settle i lost => exact settle_verified checked alone holds
  | disturb db => exact absurd alone id

/-- In every run of plain requests in which no two new hashes of one account are in flight
when one of them is written, each is written while the old password still holds. -/
theorem password_compare_and_set (P : Platform) (ls : List (Label P))
    (alone : Along (server P) WritesAlone ls (startUp P)) :
    Along (server P) ComparesAndSets ls (startUp P) := by
  refine along_of_invariant Checked step_checked ?_ alone
    ⟨Discipline.idle_holds startUp_sound, fun _ hp => absurd hp List.not_mem_nil,
      fun _ hp => absurd hp List.not_mem_nil⟩
  intro σ l _ checked i p r db pass id _ hp hs _
  exact checked.verified p (List.mem_of_getElem? hp) pass id hs

/-- The condition as a check on the state before a step. -/
def writesAlone (σ : Config P) : Label P → Bool
  | .arrive q => q.plainly
  | .settle i _ => σ.pending[i]?.all fun p => match p.stmt with
    | .updateUserPass _ id => (σ.pending.eraseIdx i).all fun p' => match p'.stmt with
      | .updateUserPass _ id' => id' ≠ id
      | _ => true
    | _ => true
  | .disturb _ => false

theorem writesAlone_of_check {σ : Config P} {l : Label P} (check : writesAlone σ l = true) :
    WritesAlone σ l := by
  cases l with
  | arrive q => exact Request.plain_of_plainly check
  | disturb db => cases check
  | settle i lost =>
    intro p hp pass id hs p' hp' pass' hs'
    simp only [writesAlone, Option.mem_def.mp hp, Option.all_some, hs] at check
    have apart := List.all_eq_true.mp check p' hp'
    simp [hs'] at apart

/-- A platform on which a password fits the hash of itself and of nothing else. -/
def exactPlatform : Platform where
  collate := samplePlatform.collate
  collate_ab := samplePlatform.collate_ab
  hashSync password _ := password
  compareSync password hash := some (password = hash)

/-- Ann signs up with the password "pw". -/
def annEnters : List (Label exactPlatform) :=
  [.arrive { sid := 0, route := .signup, body := .obj [("email", .str "ann@x"),
      ("password", .str "pw"), ("confirmPass", .str "pw"), ("displayName", .str "Ann")] },
    .settle 0 false, .settle 0 false, .settle 0 false, .settle 0 false, .settle 0 false]

/-- A request to change the password "pw". -/
def changeTo (newPass : String) : Request where
  sid := 0
  route := .updatePass
  body := .obj [("oldPass", .str "pw"), ("newPass", .str newPass)]

/-- She changes it once. -/
def oneChange : List (Label exactPlatform) :=
  annEnters ++ [.arrive (changeTo "n1"), .settle 0 false, .settle 0 false, .settle 0 false]

theorem password_sample :
    (run (server exactPlatform) oneChange
      (startUp exactPlatform)).world.db.tables.user.map (· .hash_pass) = [.text "n1"] ∧
    Along (server exactPlatform) ComparesAndSets oneChange (startUp exactPlatform) :=
  ⟨by decide +kernel, password_compare_and_set exactPlatform oneChange
    (along_of_check writesAlone (fun _ _ => writesAlone_of_check) (by decide +kernel))⟩

/-- She changes it twice at once; both requests are checked before either is written. -/
def twoChanges : List (Label exactPlatform) :=
  annEnters ++ [.arrive (changeTo "n1"), .arrive (changeTo "n2"), .settle 0 false,
    .settle 0 false, .settle 0 false, .settle 0 false, .settle 0 false]

/-- The first statement in flight would write over a hash that its old password does not fit. -/
def overwrites (σ : Config P) : Bool :=
  σ.pending.head?.any fun p => match p.stmt with
    | .updateUserPass pass (some n) =>
      (exec P.collate (.updateUserPass pass (some n)) σ.world.db).isSome &&
      σ.world.db.tables.user.all fun row => row .user_id ≠ .int n ||
        isValidPassword P (row .hash_pass) (p.ctx.req.body.get "oldPass") ≠ some true
    | _ => false

theorem not_comparesAndSets {σ : Config P} (check : overwrites σ = true) :
    ¬ ComparesAndSets σ (.settle 0 false) := by
  intro sets
  obtain ⟨⟨c, stmt, k⟩, hp, check⟩ := (Option.any_eq_true _ _).mp check
  cases stmt with
  | updateUserPass pass id =>
    cases id with
    | none => cases check
    | some n =>
      obtain ⟨writes, stale⟩ := Bool.and_eq_true_iff.mp check
      obtain ⟨⟨r, db⟩, he⟩ := Option.isSome_iff_exists.mp writes
      rw [List.head?_eq_getElem?] at hp
      obtain ⟨m, hm, row, hr, own, valid⟩ := sets 0 _ r db pass (some n) rfl hp rfl he
      cases hm
      have bad := List.all_eq_true.mp stale row hr
      simp [own, valid] at bad
  | _ => cases check

theorem both_changes_applied :
    (∀ password other salt, exactPlatform.compareSync password
      (exactPlatform.hashSync other salt) = some true ↔ password = other) ∧
    ¬ Along (server exactPlatform) ComparesAndSets (twoChanges ++ [.settle 0 false])
      (startUp exactPlatform) :=
  ⟨fun _ _ _ => by simp [exactPlatform], fun along =>
    not_comparesAndSets (by decide +kernel) along.last⟩

end OneRoof
