import OneRoof.Unauthenticated

/-!
# What a value of the body can do to a statement

A body field is any JSON value and the driver turns an object into `key` = value
pairs. In a `WHERE` clause one pair makes the key a comparison between two columns;
in a `SET` clause every pair after the first writes a column of its own. For each
of the routes that pass a body field on, the shapes of that field that let the
request reach beyond the row, house or column it names are exactly those below.
-/

namespace OneRoof

open Sql Async Async.Prog Prog

variable {P : Platform}

/-- One pair whose key is a column: the condition becomes `(key = c) = l`, which
some row can satisfy unless `c` never or always equals the key. -/
def Reshapes {κ : Type} (resolve : String → Option κ) (key : κ) (apart : κ → Prop)
    (items : Option (List Item)) : Prop :=
  ∃ name l c, items = some [.pair name l] ∧ resolve name = some c ∧
    (eqLit id (.int 1) l = some true ∧ ¬ apart c ∨ eqLit id (.int 0) l = some true ∧ c ≠ key)

/-- A later piece of a `SET` list writes another column than the one named. -/
def Spills (c : UserCol) (items : Option (List Item)) : Prop :=
  ∃ sets, setTo (column "tblUSER") c items = some sets ∧ ∃ s ∈ sets, s.1 ≠ c

/-- The row's key equals the literal that the given value is. -/
def IsGiven (collate : String → String) {κ : Type} (key : κ) (items : Option (List Item))
    (r : Row κ) : Prop :=
  ∃ l, items = some [.lit l] ∧ eqLit collate (r key) l = some true

/-- What an authenticated request does to the tables, alone and in every state,
however its statements fare. -/
def Confined (P : Platform) (q : Request) (rel : Tables → Tables → Prop) : Prop :=
  ∀ (w : World P) (u : SessionUser) (ls : List (Label P)), w.store q.sid = some u → Settles ls →
    rel w.db.tables (run (server P) (.arrive q :: ls) ⟨w, []⟩).world.db.tables

/-- At most the one task whose id is the given one is changed. -/
def TaskConfined (P : Platform) (q : Request) (given : JsVal) : Prop :=
  Confined P q fun t t' =>
    ChangesOne (IsGiven P.collate .task_id given.escape) t.task t'.task

/-- At most the one comment whose id is the given one is deleted. -/
def CommentConfined (P : Platform) (q : Request) (given : JsVal) : Prop :=
  Confined P q fun t t' =>
    RemovesOne (IsGiven P.collate .comment_id (given.bare.bind JsVal.escape)) t.comment t'.comment

/-- Who is added to a house is added to one whose code is the given one. -/
def HouseConfined (P : Platform) (q : Request) (given : JsVal) : Prop :=
  Confined P q fun t t' => ∀ r ∈ t'.houseUser, r ∈ t.houseUser ∨
    ∃ h ∈ t.house, eqValue P.collate (r .house_id) (h .house_id) = some true ∧
      IsGiven P.collate .house_code given.escape h

/-- No column of `tblUSER` is changed but the one named. -/
def ColumnConfined (P : Platform) (q : Request) (c : UserCol) : Prop :=
  Confined P q fun t t' => ∀ d, d ≠ c → t'.user.map (· d) = t.user.map (· d)

section Conditions

variable {κ : Type} {resolve : String → Option κ} {key : κ} {apart : κ → Prop}
variable {items : Option (List Item)} {q : Cond κ} {collate : String → String}

theorem eqLit_int_id (n : Int) (l : Lit) : eqLit collate (.int n) l = eqLit id (.int n) l := by
  cases l <;> rfl

/-- A row that is hit has the given key, unless the condition was reshaped. -/
theorem given_of_hit (parsed : whereEq resolve key items = some q) {r : Row κ}
    (hit : q.hits collate r = true)
    (meets : ∀ c, eqValue collate (r key) (r c) = some true → ¬ apart c) :
    IsGiven collate key items r ∨ Reshapes resolve key apart items := by
  unfold whereEq at parsed
  split at parsed
  · rename_i l
    cases parsed
    exact Or.inl ⟨l, rfl, (Cond.hits_iff collate).mp hit⟩
  · rename_i name l
    obtain ⟨c, hc, rfl⟩ := Option.map_eq_some_iff.mp parsed
    have truth : eqTruth collate (eqValue collate (r key) (r c)) l = some true :=
      (Cond.hits_iff collate).mp hit
    refine Or.inr ⟨name, l, c, rfl, hc, ?_⟩
    rcases eqTruth_eq_true truth with ⟨equal, one⟩ | ⟨unequal, zero⟩
    · rw [eqLit_int_id] at one
      exact Or.inl ⟨one, meets c equal⟩
    · rw [eqLit_int_id] at zero
      refine Or.inr ⟨zero, ?_⟩
      rintro rfl
      exact eqValue_self _ unequal
  · cases parsed

/-- A reshaped condition is never about a given key. -/
theorem not_given_of_reshapes (reshapes : Reshapes resolve key apart items) (r : Row κ) :
    ¬ IsGiven collate key items r := by
  obtain ⟨name, l, c, hi, -⟩ := reshapes
  rintro ⟨l', hl, -⟩
  rw [hi] at hl
  cases hl

/-- The reshaped condition, and the rows it hits. -/
theorem whereEq_reshaped (collate : String → String)
    (reshapes : Reshapes resolve key apart items) :
    ∃ q c, whereEq resolve key items = some q ∧
      ((¬ apart c ∧ ∀ r : Row κ, eqValue collate (r key) (r c) = some true →
          q.hits collate r = true) ∨
        c ≠ key ∧ ∀ r : Row κ, eqValue collate (r key) (r c) = some false →
          q.hits collate r = true) := by
  obtain ⟨name, l, c, rfl, hc, one | zero⟩ := reshapes
  · refine ⟨.eqEq key c l, c, by simp [whereEq, hc], Or.inl ⟨one.2, fun r equal => ?_⟩⟩
    have : eqLit collate (.int 1) l = some true := (eqLit_int_id 1 l).trans one.1
    simpa [Cond.hits_iff, Cond.eval, equal, eqTruth] using this
  · refine ⟨.eqEq key c l, c, by simp [whereEq, hc], Or.inr ⟨zero.2, fun r unequal => ?_⟩⟩
    have : eqLit collate (.int 0) l = some true := (eqLit_int_id 0 l).trans zero.1
    simpa [Cond.hits_iff, Cond.eval, unequal, eqTruth] using this

end Conditions

section Tasks

variable {t : Tables} {sets : List (TaskCol × Rhs TaskCol)} {q : Cond TaskCol}

/-- A task id is a text, so a literal names one task at most. -/
theorem task_hitsOnce (db : Database P.collate) {items : Option (List Item)}
    (parsed : whereEq (column "tblTASK") .task_id items = some q)
    (plain : ¬ Reshapes (column "tblTASK") TaskCol.task_id (fun _ => False) items) :
    HitsOnce P.collate q db.tables.task ∧
      ∀ r, q.hits P.collate r = true → IsGiven P.collate .task_id items r := by
  have given : ∀ r, q.hits P.collate r = true → IsGiven P.collate .task_id items r :=
    fun r hit => (given_of_hit parsed hit fun _ _ => id).resolve_right plain
  refine ⟨db.sound.task_key.imp_of_mem fun {r r'} hr hr' apart hits => apart ?_, given⟩
  obtain ⟨l, hi, hl⟩ := given r hits.1
  obtain ⟨l', hi', hl'⟩ := given r' hits.2
  cases hi.symm.trans hi'
  have text : ∀ r ∈ db.tables.task, ∃ s, r .task_id = .text s := fun r hr => by
    obtain ⟨s, hs, -⟩ := (varchar_cases (c := TaskCol.task_id) (m := 100) rfl
      db.sound.task_typed hr).resolve_left (fun h => absurd h.2 (by decide))
    exact ⟨s, hs⟩
  obtain ⟨s, hs⟩ := text r hr
  obtain ⟨s', hs'⟩ := text r' hr'
  rw [hs] at hl ⊢
  rw [hs'] at hl' ⊢
  exact text_eqLit_trans hl hl'

/-- A completed update of `tblTASK` under a condition that was not reshaped. -/
theorem setsTask_changesOne {s : Stmt} {items : Option (List Item)} {db db' : Database P.collate}
    {r : s.Reply} (parsed : whereEq (column "tblTASK") .task_id items = some q)
    (writes : s.setsTask = some (sets, q))
    (plain : ¬ Reshapes (column "tblTASK") TaskCol.task_id (fun _ => False) items)
    (he : exec P.collate s db = some (r, db')) :
    ChangesOne (IsGiven P.collate .task_id items) db.tables.task db'.tables.task := by
  obtain ⟨once, given⟩ := task_hitsOnce db parsed plain
  have effect := exec_effect he
  generalize db'.tables = t at effect ⊢
  generalize db'.next = n at effect
  cases effect with
  | select reads => exact Or.inl rfl
  | setUser => exact Or.inl rfl
  | setTask writes' =>
    cases writes.symm.trans writes'
    rcases update_once once with same | ⟨i, x, x', hx, hit, hset⟩
    · exact Or.inl same
    · exact Or.inr ⟨i, x, x', hx, given x hit, hset⟩
  | createTask => cases writes
  | _ => exact Or.inl rfl

theorem two_letters (v : Value) : ∃ x, (x = "a" ∨ x = "b") ∧ v ≠ .text x := by
  by_cases h : v = .text "a"
  · exact ⟨"b", Or.inr rfl, by simp [h]⟩
  · exact ⟨"a", Or.inl rfl, h⟩

/-- The column and the letter that a `SET` list never leaves behind. -/
theorem sets_avoid {items : Option (List Item)}
    (parsed : setTo (column "tblTASK") .task_status items = some sets) :
    ∃ c x, (x = "a" ∨ x = "b") ∧ ∀ r, assign P.collate sets r c ≠ .text x := by
  obtain ⟨e, later, rfl, literals⟩ := setTo_cases parsed
  cases later with
  | cons s later =>
    obtain ⟨l, hl⟩ := assign_literals P.collate (c := s.1) literals
      ⟨s, List.mem_cons_self, rfl⟩
    obtain ⟨x, letter, hx⟩ := two_letters (store s.1 l.value)
    exact ⟨s.1, x, letter, fun r h => hx ((hl _).symm.trans h)⟩
  | nil =>
    have stored : ∀ r, assign P.collate [(TaskCol.task_status, e)] r .task_status =
        store TaskCol.task_status (e.value P.collate r) := fun r => by simp [assign]
    cases e with
    | lit l =>
      obtain ⟨x, letter, hx⟩ := two_letters (store TaskCol.task_status l.value)
      exact ⟨.task_status, x, letter, fun r h => hx ((stored r).symm.trans h)⟩
    | cmp k l =>
      refine ⟨.task_status, "a", Or.inl rfl, fun r h => ?_⟩
      rw [stored] at h
      revert h
      simp only [Rhs.value]
      match eqLit P.collate (r k) l with
      | none => decide
      | some true => decide
      | some false => decide

/-- A row of letters that a reshaped condition hits, with one of them chosen. -/
theorem letters_hit {items : Option (List Item)}
    (reshapes : Reshapes (column "tblTASK") TaskCol.task_id (fun _ => False) items) (d : TaskCol)
    {x : String} (letter : x = "a" ∨ x = "b") :
    ∃ q r, whereEq (column "tblTASK") .task_id items = some q ∧ q.hits P.collate r = true ∧
      r d = .text x ∧ ∀ c, r c = .text "a" ∨ r c = .text "b" := by
  obtain ⟨q, c, parsed, ⟨-, hits⟩ | ⟨ne, hits⟩⟩ := whereEq_reshaped P.collate reshapes
  · refine ⟨q, fun _ => .text x, parsed, hits _ (by simp [eqValue]), rfl, fun _ => ?_⟩
    rcases letter with rfl | rfl
    · exact Or.inl rfl
    · exact Or.inr rfl
  · have apart := P.collate_ab
    have rows : ∀ f g, (f = "a" ∧ g = "b" ∨ f = "b" ∧ g = "a") →
        q.hits P.collate (fun e => if e = .task_id then .text f else .text g) = true := by
      intro f g letters
      refine hits _ ?_
      rcases letters with ⟨rfl, rfl⟩ | ⟨rfl, rfl⟩
      · simp [ne, eqValue, apart]
      · simp [ne, eqValue, apart.symm]
    have letters : ∀ (f g : String) (e : TaskCol), (f = "a" ∧ g = "b" ∨ f = "b" ∧ g = "a") →
        (if e = .task_id then Value.text f else .text g) = .text "a" ∨
          (if e = .task_id then Value.text f else .text g) = .text "b" := by
      rintro f g e (⟨rfl, rfl⟩ | ⟨rfl, rfl⟩) <;> split <;> simp
    obtain ⟨y, hxy⟩ : ∃ y, x = "a" ∧ y = "b" ∨ x = "b" ∧ y = "a" := by
      rcases letter with rfl | rfl
      · exact ⟨"b", Or.inl ⟨rfl, rfl⟩⟩
      · exact ⟨"a", Or.inr ⟨rfl, rfl⟩⟩
    have hyx := hxy.symm.imp And.symm And.symm
    by_cases hd : d = .task_id
    · exact ⟨q, _, parsed, rows x y hxy, by simp [hd], fun e => letters x y e hxy⟩
    · exact ⟨q, _, parsed, rows y x hyx, by simp [hd], fun e => letters y x e hyx⟩

theorem task_sound {r : Row TaskCol} (typed : ∀ c, fits c (r c) = true) :
    Integrity P.collate { noTables with task := [r] } := by
  rw [integrity_iff]
  simp [noTables, typed_singleton typed]

/-- Just one task. -/
def oneTask (r : Row TaskCol) (typed : ∀ c, fits c (r c) = true) : Database P.collate where
  tables := { noTables with task := [r] }
  next := ⟨1, 1, 1, 1, 1, 1, 1⟩
  sound := task_sound typed

theorem exec_setsTask {s : Stmt} (writes : s.setsTask = some (sets, q))
    (db : Database P.collate) {db' : Database P.collate} (commits : commit P.collate
      { db.tables with task := update P.collate q sets db.tables.task } db.next = some db') :
    ∃ r, exec P.collate s db = some (r, db') := by
  cases s with
  | removeTask completedDate id =>
    obtain ⟨q', parsed, h⟩ := Option.bind_eq_some_iff.mp writes
    cases h
    refine ⟨⟨(select P.collate q db.tables.task).length, 0⟩, ?_⟩
    simp only [exec, setTo_str, parsed, Option.bind_eq_bind, Option.bind_some,
      List.cons_append, List.nil_append, commits]
    rfl
  | updateTask taskStatus taskId =>
    obtain ⟨status, hs, h⟩ := Option.bind_eq_some_iff.mp writes
    obtain ⟨q', parsed, h⟩ := Option.bind_eq_some_iff.mp h
    cases h
    refine ⟨⟨(select P.collate q db.tables.task).length, 0⟩, ?_⟩
    simp only [exec, hs, parsed, Option.bind_eq_bind, Option.bind_some, commits]
    rfl
  | _ => cases writes

theorem exec_unparsed {s : Stmt} (kind : (∃ d id, s = .removeTask d id) ∨
    ∃ v id, s = .updateTask v id) (unparsed : s.setsTask = none) (db : Database P.collate) :
    exec P.collate s db = none := by
  rcases kind with ⟨d, id, rfl⟩ | ⟨v, id, rfl⟩
  · cases hq : whereEq (column "tblTASK") TaskCol.task_id id.escape with
    | none => simp only [exec, setTo_str, hq, Option.bind_eq_bind, Option.bind_some,
        Option.bind_none]
    | some q => simp [Stmt.setsTask, hq] at unparsed
  · cases hs : setTo (column "tblTASK") TaskCol.task_status v.escape with
    | none => simp only [exec, hs, Option.bind_eq_bind, Option.bind_none]
    | some status =>
      cases hq : whereEq (column "tblTASK") TaskCol.task_id id.escape with
      | none => simp only [exec, hs, hq, Option.bind_eq_bind, Option.bind_some, Option.bind_none]
      | some q => simp [Stmt.setsTask, hs, hq] at unparsed

theorem exec_oneTask {s : Stmt} {r : Row TaskCol} (typed : ∀ c, fits c (r c) = true)
    (writes : s.setsTask = some (sets, q)) (hit : q.hits P.collate r = true) :
    ∃ reply db', exec P.collate s (oneTask r typed) = some (reply, db') ∧
      db'.tables.task = [assign P.collate sets r] := by
  have updated : update P.collate q sets [r] = [assign P.collate sets r] := by
    simp [update, hit]
  have undated : ∀ c : TaskCol, Columns.type c ≠ .timestamp := by
    intro c
    cases c <;> decide
  have sound := task_sound (P := P) (fits_assign P.collate undated sets typed)
  have commits : commit P.collate { noTables with task := update P.collate q sets [r] }
      (oneTask (P := P) r typed).next = some ⟨_, (oneTask (P := P) r typed).next, sound⟩ := by
    rw [updated]
    exact commit_of_sound _ sound
  obtain ⟨reply, he⟩ := exec_setsTask writes (oneTask r typed) commits
  exact ⟨reply, _, he, rfl⟩

/-- A request whose one write is an update of `tblTASK` with the given id. -/
theorem taskConfined_iff {req : Request} {given : JsVal} {s : Stmt}
    (single : ∀ w : World P, ∃ k, handler P (w.context req) = .issue s k .done ∧
      ∀ r, (k r).Issues (fun s => s.isSelect = true))
    (kind : (∃ d id, s = .removeTask d id) ∨ ∃ v id, s = .updateTask v id)
    (writes : s.setsTask = (whereEq (column "tblTASK") .task_id given.escape).map (sets, ·))
    (avoids : ∃ c x, (x = "a" ∨ x = "b") ∧ ∀ r, assign P.collate sets r c ≠ .text x) :
    TaskConfined P req given ↔
      ¬ Reshapes (column "tblTASK") TaskCol.task_id (fun _ => False) given.escape := by
  constructor
  · intro confined reshapes
    obtain ⟨c, x, letter, avoid⟩ := avoids
    obtain ⟨q, r, parsed, hit, hx, letters⟩ := letters_hit (P := P) reshapes c letter
    have typed : ∀ c, fits c (r c) = true := by
      intro c
      rcases letters c with h | h <;> rw [h] <;> cases c <;> decide
    obtain ⟨reply, db', he, ht⟩ := exec_oneTask typed (by rw [writes, parsed]; rfl) hit
    let w := World.fresh P (oneTask r typed) fun _ => some sampleSession
    obtain ⟨k, hk, -⟩ := single w
    have served := serve_single (σ := ⟨w, []⟩) hk he
    have rel := confined w _ [.settle 0 false] rfl
      (fun l hl => ⟨0, false, List.mem_singleton.mp hl⟩)
    rw [show run (server P) [.arrive req, .settle 0 false] ⟨w, []⟩ = _ from served, enter_db] at rel
    rcases rel with same | ⟨i, r', -, -, isGiven, -⟩
    · have : [assign P.collate sets r] = [r] := ht.symm.trans same
      exact avoid r (by rw [(List.cons.inj this).1, hx])
    · exact not_given_of_reshapes reshapes r' isGiven
  · intro plain w u ls _ settles
    obtain ⟨k, hk, later⟩ := single w
    rcases single_write hk later settles with same | ⟨r, he⟩
    · rw [same]
      exact Or.inl rfl
    · cases hq : whereEq (column "tblTASK") TaskCol.task_id given.escape with
      | none => simp [exec_unparsed kind (by rw [writes, hq]; rfl)] at he
      | some q => exact setsTask_changesOne hq (by rw [writes, hq]; rfl) plain he

theorem toStr_of_reshapes {κ : Type} {resolve : String → Option κ} {key : κ} {apart : κ → Prop}
    {v : JsVal} (reshapes : Reshapes resolve key apart v.escape)
    (unnamed : resolve "toString" = none) : v.toStr = some "[object Object]" := by
  obtain ⟨name, l, c, hi, hc, -⟩ := reshapes
  obtain ⟨w, rfl⟩ := JsVal.escape_pair hi
  have : name ≠ "toString" := by
    rintro rfl
    simp [unnamed] at hc
  simp [JsVal.toStr, this]

theorem deleteTask_confined_iff {req : Request} (route : req.route = .deleteTask) :
    TaskConfined P req (req.body.get "id") ↔
      ¬ Reshapes (column "tblTASK") TaskCol.task_id (fun _ => False)
        (req.body.get "id").escape := by
  cases ht : (req.body.get "id").toStr with
  | none =>
    refine ⟨fun _ reshapes => ?_, fun _ w u ls _ settles => ?_⟩
    · rw [toStr_of_reshapes reshapes (by decide)] at ht
      cases ht
    · have thrown : handler P (w.context req) =
          Prog.send (.status 500 "Internal Server Error") (w.context req).user := by
        simp only [handler, World.context, OneRoof.route, route, deleteTask, ht]
        rfl
      rw [run_cons, arrive_eq, thrown, selects_run_db settles (enter_bounded _ _ _
        (send_issues _ _) fun _ hp => absurd hp List.not_mem_nil), enter_db]
      exact Or.inl rfl
  | some text =>
    refine taskConfined_iff (s := .removeTask req.clock (req.body.get "id")) (fun w => ?_)
      (Or.inl ⟨_, _, rfl⟩) (by simp [Stmt.setsTask, Option.map_eq_bind]; rfl) ?_
    · obtain ⟨k, hk, -, later⟩ := handler_opening (P := P) (c := w.context req)
        (s := .removeTask req.clock (req.body.get "id"))
        (by simp [opening, World.context, route, ht])
      exact ⟨k, hk, later rfl⟩
    · refine ⟨.task_status, "a", Or.inl rfl, fun r => ?_⟩
      have stored : assign P.collate [(TaskCol.task_archived_date, .lit (.str req.clock)),
          (.task_status, .lit (.str "complete"))] r .task_status =
          store TaskCol.task_status (.text "complete") := by
        simp [assign, Rhs.value, Lit.value]
      rw [stored]
      decide

theorem updateTask_confined_iff {req : Request} (route : req.route = .updateTask) :
    TaskConfined P req (req.body.get "taskId") ↔
      ¬ (setTo (column "tblTASK") TaskCol.task_status (req.body.get "taskStatus").escape ≠ none ∧
        Reshapes (column "tblTASK") TaskCol.task_id (fun _ => False)
          (req.body.get "taskId").escape) := by
  let s : Stmt := .updateTask (req.body.get "taskStatus") (req.body.get "taskId")
  have single : ∀ w : World P, ∃ k, handler P (w.context req) = .issue s k .done ∧
      ∀ r, (k r).Issues (fun s => s.isSelect = true) := by
    intro w
    obtain ⟨k, hk, -, later⟩ := handler_opening (P := P) (c := w.context req) (s := s)
      (by simp [opening, World.context, route, s])
    exact ⟨k, hk, later rfl⟩
  cases hs : setTo (column "tblTASK") TaskCol.task_status (req.body.get "taskStatus").escape with
  | none =>
    refine ⟨fun _ h => h.1 rfl, fun _ w u ls _ settles => ?_⟩
    obtain ⟨k, hk, later⟩ := single w
    rcases single_write hk later settles with same | ⟨r, he⟩
    · rw [same]
      exact Or.inl rfl
    · have unparsed : s.setsTask = none := by simp [s, Stmt.setsTask, hs]
      rw [exec_unparsed (Or.inr ⟨_, _, rfl⟩) unparsed] at he
      cases he
  | some sets =>
    rw [taskConfined_iff single (Or.inr ⟨_, _, rfl⟩)
      (by simp [s, Stmt.setsTask, hs, Option.map_eq_bind]) (sets_avoid hs)]
    simp

end Tasks

theorem number_one : number "1" = 1 := by decide +kernel

theorem number_letter : number "a" = 0 := by decide +kernel

/-- A user with a number and a letter everywhere else. -/
def letterUser (n : Int) (x : String) : Row UserCol
  | .user_id => .int n
  | _ => .text x

section Comments

/-- Equal to its id in every column that can be. -/
def equalComment : Row CommentCol
  | .comment_id => .int 1
  | .comment_descr => .text "1"
  | .comment_time => .int 19700101000001
  | .comment_owner_id => .int 1
  | .task_id => .text "1"

/-- Different from its id in every other column. -/
def unequalComment : Row CommentCol
  | .comment_id => .int 2
  | .comment_descr => .text "a"
  | .comment_time => .int 19700101000001
  | .comment_owner_id => .int 1
  | .task_id => .text "a"

/-- One user and one comment of that user. -/
def oneComment (r : Row CommentCol) (sample : r = equalComment ∨ r = unequalComment) :
    Database P.collate where
  tables := { noTables with user := [letterUser 1 "a"], comment := [r] }
  next := ⟨1, 1, 1, 1, 1, 1, 1⟩
  sound := by
    have user : Typed [letterUser 1 "a"] := by decide
    have comment : Typed [r] := by
      rcases sample with rfl | rfl <;> decide
    have owner : eqValue P.collate (r .comment_owner_id) (.int 1) = some true := by
      rcases sample with rfl | rfl <;> rfl
    rw [integrity_iff]
    simp [noTables, user, comment, Refers, owner, letterUser]

/-- A timestamp is no comment id. -/
theorem comment_time_apart {db : Database P.collate} {r : Row CommentCol}
    (hr : r ∈ db.tables.comment) (c : CommentCol)
    (equal : eqValue P.collate (r .comment_id) (r c) = some true) : ¬ c = .comment_time := by
  rintro rfl
  have id := db.sound.comment_typed r hr .comment_id (Columns.mem_all _)
  have time := db.sound.comment_typed r hr .comment_time (Columns.mem_all _)
  obtain ⟨n, hn⟩ := int_cell (c := CommentCol.comment_id) rfl rfl db.sound.comment_typed hr
  cases ht : r .comment_time with
  | null => simp [ht, hn, eqValue] at equal
  | text s => simp [ht, fits, Columns.type] at time
  | int m =>
    simp only [hn, ht, eqValue, Option.some.injEq, decide_eq_true_eq] at equal
    simp only [hn, ht, fits, Columns.type, decide_eq_true_eq] at id time
    omega

/-- A completed deletion under a condition that was not reshaped. -/
theorem deleteComment_removesOne {id : JsVal} {db db' : Database P.collate} {r : Packet}
    (plain : ¬ Reshapes (column "tblCOMMENT") CommentCol.comment_id (· = .comment_time)
      (id.bare.bind JsVal.escape))
    (he : exec P.collate (.deleteComment id) db = some (r, db')) :
    RemovesOne (IsGiven P.collate .comment_id (id.bare.bind JsVal.escape)) db.tables.comment
      db'.tables.comment := by
  have effect := exec_effect he
  generalize db'.tables = t at effect ⊢
  generalize db'.next = n at effect
  cases effect with
  | select reads => cases reads
  | setUser writes => cases writes
  | setTask writes => cases writes
  | @deleteComment _ v q given parsed =>
    rw [given, Option.bind_some] at plain ⊢
    have isGiven : ∀ r ∈ db.tables.comment, q.hits P.collate r = true →
        IsGiven P.collate .comment_id v.escape r := fun r hr hit =>
      (given_of_hit parsed hit (comment_time_apart hr)).resolve_right plain
    have once : HitsOnce P.collate q db.tables.comment := by
      refine db.sound.comment_key.imp_of_mem fun {r r'} hr hr' apart hits => apart ?_
      obtain ⟨l, hi, hl⟩ := isGiven r hr hits.1
      obtain ⟨l', hi', hl'⟩ := isGiven r' hr' hits.2
      cases hi.symm.trans hi'
      obtain ⟨n, hn⟩ := int_cell (c := CommentCol.comment_id) rfl rfl db.sound.comment_typed hr
      obtain ⟨m, hm⟩ := int_cell (c := CommentCol.comment_id) rfl rfl db.sound.comment_typed hr'
      rw [hn] at hl ⊢
      rw [hm] at hl' ⊢
      exact int_eqLit_trans hl hl'
    rcases delete_once once with same | ⟨i, x, hx, hit, herase⟩
    · exact Or.inl same
    · exact Or.inr ⟨i, x, hx, isGiven x (List.mem_of_getElem? hx) hit, herase⟩

theorem exec_deleteComment {id v : JsVal} {q : Cond CommentCol} (given : id.bare = some v)
    (parsed : whereEq (column "tblCOMMENT") .comment_id v.escape = some q)
    (db : Database P.collate) {db' : Database P.collate} (commits : commit P.collate
      { db.tables with comment := delete P.collate q db.tables.comment } db.next = some db') :
    ∃ r, exec P.collate (.deleteComment id) db = some (r, db') := by
  refine ⟨⟨(select P.collate q db.tables.comment).length, 0⟩, ?_⟩
  simp only [exec, given, parsed, Option.bind_eq_bind, Option.bind_some, commits]
  rfl

theorem exec_oneComment {id v : JsVal} {q : Cond CommentCol} {r : Row CommentCol}
    (sample : r = equalComment ∨ r = unequalComment) (given : id.bare = some v)
    (parsed : whereEq (column "tblCOMMENT") .comment_id v.escape = some q)
    (hit : q.hits P.collate r = true) :
    ∃ reply db', exec P.collate (.deleteComment id) (oneComment r sample) = some (reply, db') ∧
      db'.tables.comment = [] := by
  have user : Typed [letterUser 1 "a"] := by decide
  have deleted : delete P.collate q [r] = [] := by simp [delete, hit]
  have sound : Integrity P.collate { noTables with user := [letterUser 1 "a"] } := by
    rw [integrity_iff]
    simp [noTables, user]
  have commits : commit P.collate { noTables with
        user := [letterUser 1 "a"], comment := delete P.collate q [r] }
      (oneComment (P := P) r sample).next =
      some ⟨_, (oneComment (P := P) r sample).next, sound⟩ := by
    rw [deleted]
    exact commit_of_sound _ sound
  obtain ⟨reply, he⟩ := exec_deleteComment given parsed (oneComment r sample) commits
  exact ⟨reply, _, he, rfl⟩

/-- A reshaped condition hits one of the two sample comments. -/
theorem comment_hit {items : Option (List Item)}
    (reshapes : Reshapes (column "tblCOMMENT") CommentCol.comment_id (· = .comment_time) items) :
    ∃ q r, whereEq (column "tblCOMMENT") .comment_id items = some q ∧
      q.hits P.collate r = true ∧ (r = equalComment ∨ r = unequalComment) := by
  obtain ⟨q, c, parsed, ⟨apart, hits⟩ | ⟨ne, hits⟩⟩ := whereEq_reshaped P.collate reshapes
  · refine ⟨q, equalComment, parsed, hits _ ?_, Or.inl rfl⟩
    cases c <;> simp [equalComment, eqValue, number_one] at apart ⊢
  · refine ⟨q, unequalComment, parsed, hits _ ?_, Or.inr rfl⟩
    cases c <;> simp [unequalComment, eqValue, number_letter] at ne ⊢

theorem deleteComment_confined_iff {req : Request} (route : req.route = .deleteComment) :
    CommentConfined P req (req.body.get "comment_id") ↔
      ¬ Reshapes (column "tblCOMMENT") CommentCol.comment_id (· = .comment_time)
        ((req.body.get "comment_id").bare.bind JsVal.escape) := by
  let s : Stmt := .deleteComment (req.body.get "comment_id")
  have single : ∀ w : World P, ∃ k, handler P (w.context req) = .issue s k .done ∧
      ∀ r, (k r).Issues (fun s => s.isSelect = true) := by
    intro w
    obtain ⟨k, hk, -, later⟩ := handler_opening (P := P) (c := w.context req) (s := s)
      (by simp [opening, World.context, route, s])
    exact ⟨k, hk, later rfl⟩
  constructor
  · intro confined reshapes
    obtain ⟨v, hv⟩ : ∃ v, (req.body.get "comment_id").bare = some v := by
      cases hb : (req.body.get "comment_id").bare with
      | some v => exact ⟨v, rfl⟩
      | none =>
        obtain ⟨name, l, c, hi, -⟩ := reshapes
        simp [hb] at hi
    obtain ⟨q, r, parsed, hit, sample⟩ := comment_hit (P := P) reshapes
    rw [hv, Option.bind_some] at parsed
    obtain ⟨reply, db', he, ht⟩ := exec_oneComment sample hv parsed hit
    let w := World.fresh P (oneComment r sample) fun _ => some sampleSession
    obtain ⟨k, hk, -⟩ := single w
    have served := serve_single (σ := ⟨w, []⟩) hk he
    have rel := confined w _ [.settle 0 false] rfl
      (fun l hl => ⟨0, false, List.mem_singleton.mp hl⟩)
    rw [show run (server P) [.arrive req, .settle 0 false] ⟨w, []⟩ = _ from served, enter_db] at rel
    rcases rel with same | ⟨i, r', -, isGiven, -⟩
    · have : [] = [r] := ht.symm.trans same
      cases this
    · exact not_given_of_reshapes reshapes r' isGiven
  · intro plain w u ls _ settles
    obtain ⟨k, hk, later⟩ := single w
    rcases single_write hk later settles with same | ⟨r, he⟩
    · rw [same]
      exact Or.inl rfl
    · exact deleteComment_removesOne plain he

end Comments

section Houses

/-- The code equals every column. -/
def equalHouse : Row HouseCol
  | .house_id => .int 1
  | .house_name => .text "1"
  | .rent_total => .int 1
  | .house_code => .text "1"

/-- The code equals no other column. -/
def unequalHouse : Row HouseCol
  | .house_id => .int 1
  | .house_name => .text "b"
  | .rent_total => .int 1
  | .house_code => .text "a"

/-- One user and one house. -/
def oneHouse (h : Row HouseCol) (sample : h = equalHouse ∨ h = unequalHouse) :
    Database P.collate where
  tables := { noTables with user := [letterUser 1 "a"], house := [h] }
  next := ⟨1, 1, 1, 1, 1, 1, 1⟩
  sound := by
    have user : Typed [letterUser 1 "a"] := by decide
    have house : Typed [h] := by
      rcases sample with rfl | rfl <;> decide
    rw [integrity_iff]
    simp [noTables, user, house]

theorem house_hit {items : Option (List Item)}
    (reshapes : Reshapes (column "tblHOUSE") HouseCol.house_code (fun _ => False) items) :
    ∃ q h, whereEq (column "tblHOUSE") .house_code items = some q ∧
      q.hits P.collate h = true ∧ (h = equalHouse ∨ h = unequalHouse) := by
  obtain ⟨q, c, parsed, ⟨-, hits⟩ | ⟨ne, hits⟩⟩ := whereEq_reshaped P.collate reshapes
  · refine ⟨q, equalHouse, parsed, hits _ ?_, Or.inl rfl⟩
    cases c <;> simp [equalHouse, eqValue, number_one]
  · refine ⟨q, unequalHouse, parsed, hits _ ?_, Or.inr rfl⟩
    cases c <;> simp [unequalHouse, eqValue, number_letter, P.collate_ab] at ne ⊢

/-- The row that puts the first user in the first house. -/
def firstMember : Row HouseUserCol := fun _ => .int 1

theorem exec_oneHouse {h : Row HouseCol} (sample : h = equalHouse ∨ h = unequalHouse) :
    ∃ reply db', exec P.collate (.addUserToHouse (some 1) (some 1)) (oneHouse h sample) =
        some (reply, db') ∧ db'.tables.houseUser = [firstMember] := by
  have user : Typed [letterUser 1 "a"] := by decide
  have house : Typed [h] := by
    rcases sample with rfl | rfl <;> decide
  have member : Typed [firstMember] := by decide
  have hid : h .house_id = .int 1 := by
    rcases sample with rfl | rfl <;> rfl
  have sound : Integrity P.collate { noTables with
      user := [letterUser 1 "a"], house := [h], houseUser := [firstMember] } := by
    rw [integrity_iff]
    simp [noTables, user, house, member, Refers, firstMember, hid, letterUser, eqValue]
  have parsed : valuesOf (column "tblHOUSE_USER") [(HouseUserCol.house_id, .ofInt (some 1)),
      (.user_id, .ofInt (some 1))] = some [(.house_id, .lit (.num 1)), (.user_id, .lit (.num 1))] :=
    rfl
  have filled : houseUserRow P.collate 1 (some 1) (some 1) = some firstMember := by
    rw [houseUserRow, newRow, parsed]
    simp only [Option.bind_eq_bind, Option.bind_some, fill, Rhs.value, Lit.value, reduceCtorEq,
      false_and, if_false, Option.some.injEq]
    funext c
    cases c <;> rfl
  obtain ⟨reply, he⟩ := exec_addUserToHouse filled (oneHouse h sample) rfl
    (commit_of_sound ⟨1, 1, 2, 1, 1, 1, 1⟩ sound)
  exact ⟨reply, _, he, rfl⟩

/-- Only houses with the given code are joined. -/
def joins (t : Tables) (items : Option (List Item)) : Discipline (server P) where
  Good w := w.db.tables.house = t.house ∧ ∀ r ∈ w.db.tables.houseUser, r ∈ t.houseUser ∨
    ∃ h ∈ t.house, eqValue P.collate (r .house_id) (h .house_id) = some true ∧
      IsGiven P.collate HouseCol.house_code items h
  Le _ _ := True
  Allowed _ s _ := s.isSelect = true ∨
    ∃ h ∈ t.house, IsGiven P.collate HouseCol.house_code items h ∧
      ∃ id, s = .addUserToHouse (cellInt (h .house_id)) id
  Permit _ _ _ := True
  refl _ := trivial
  trans _ _ := trivial
  mono _ h := h
  exec_good := by
    intro c s w r w' good allowed he
    obtain ⟨⟨r', db⟩, hx, hw⟩ := Option.map_eq_some_iff.mp he
    cases hw
    refine ⟨?_, trivial⟩
    rcases allowed with reads | ⟨h, hh, given, id, rfl⟩
    · rw [exec_select reads hx]
      exact good
    · obtain ⟨n, hn⟩ := int_cell (c := HouseCol.house_id) rfl rfl w.db.sound.house_typed
        (good.1 ▸ hh)
      have range := w.db.sound.house_typed h (good.1 ▸ hh) .house_id (Columns.mem_all _)
      simp only [hn, fits, Columns.type, decide_eq_true_eq] at range
      have effect := exec_effect hx
      generalize db.tables = t' at effect ⊢
      generalize db.next = n' at effect
      cases effect with
      | select reads => cases reads
      | setUser writes => cases writes
      | setTask writes => cases writes
      | addUserToHouse filled =>
        refine ⟨good.1, fun r hr => ?_⟩
        rcases List.mem_append.mp hr with old | new
        · exact good.2 r old
        · rw [List.mem_singleton.mp new]
          rw [hn, cellInt] at filled
          refine Or.inr ⟨h, hh, ?_, given⟩
          simp [houseUserRow_house filled, hn, eqValue, clip_of_range range]
  refuse_good good := ⟨good, trivial⟩
  perform_good := by
    intro c a w good _
    rw [perform_db]
    exact ⟨good, trivial⟩

/-- The houses a select finds have the given code. -/
theorem found_given {given : JsVal} {db db' : Database P.collate} {rows : List (Row HouseCol)}
    (plain : ¬ Reshapes (column "tblHOUSE") HouseCol.house_code (fun _ => False) given.escape)
    (he : exec P.collate (.getHouseWithCode given) db = some (rows, db')) :
    ∀ h ∈ rows, h ∈ db.tables.house ∧ IsGiven P.collate HouseCol.house_code given.escape h := by
  obtain ⟨q, parsed, h⟩ := Option.bind_eq_some_iff.mp he
  cases h
  intro h hh
  obtain ⟨mem, hit⟩ := List.mem_filter.mp hh
  exact ⟨mem, (given_of_hit parsed hit fun _ _ => id).resolve_right plain⟩

theorem joinHouse_safe {c : Ctx} (route : c.req.route = .joinHouse) (t : Tables) (w : World P)
    (plain : ¬ Reshapes (column "tblHOUSE") HouseCol.house_code (fun _ => False)
      (c.req.body.get "enterHouseCode").escape)
    (good : (joins t (c.req.body.get "enterHouseCode").escape).Good w) :
    (joins t (c.req.body.get "enterHouseCode").escape).Safe c (handler P c) w := by
  simp only [handler, OneRoof.route, route, joinHouse]
  refine Discipline.Safe.recover good (safe_thenCatch (Or.inl rfl) (fun _ _ _ => trivial) ?_)
    fun _ _ _ => safe_send trivial
  intro w' rows db _ good' he _ _
  have found := found_given plain he
  cases hr : rows.head? with
  | none => exact safe_send trivial
  | some h =>
    obtain ⟨mem, given⟩ := found h (List.mem_of_head? hr)
    exact safe_withUser fun u _ =>
      safe_start (Or.inr ⟨h, good'.1 ▸ mem, given, _, rfl⟩) trivial

theorem joinHouse_confined_iff {req : Request} (route : req.route = .joinHouse) :
    HouseConfined P req (req.body.get "enterHouseCode") ↔
      ¬ Reshapes (column "tblHOUSE") HouseCol.house_code (fun _ => False)
        (req.body.get "enterHouseCode").escape := by
  constructor
  · intro confined reshapes
    obtain ⟨q, h, parsed, hit, sample⟩ := house_hit (P := P) reshapes
    let w := World.fresh P (oneHouse h sample) fun _ => some sampleSession
    have found : exec P.collate (.getHouseWithCode (req.body.get "enterHouseCode"))
        (oneHouse h sample) = some ([h], oneHouse h sample) := by
      have hits : select P.collate q [h] = [h] := by simp [select, hit]
      simp only [exec, parsed, Option.bind_eq_bind, Option.bind_some, selectHouse]
      exact congrArg (fun rows => some (rows, oneHouse h sample)) hits
    obtain ⟨reply, db', joined, member⟩ := exec_oneHouse (P := P) sample
    have single : ∃ k, handler P (w.context req) =
          .issue (.getHouseWithCode (req.body.get "enterHouseCode")) k .done ∧
        k (some [h]) = .issue (.addUserToHouse (some 1) (some 1)) (fun _ => .done) .done := by
      have hid : cellInt (h .house_id) = some 1 := by
        rcases sample with rfl | rfl <;> rfl
      refine ⟨_, by simp only [handler, OneRoof.route, World.context, route]; rfl, ?_⟩
      simp only [thenCatch, List.head?_cons, hid]
      rfl
    obtain ⟨k, hk, next⟩ := single
    have served := serve_single (σ := ⟨w, []⟩) hk found
    have rel := confined w _ [.settle 0 false, .settle 0 false] rfl
      (fun l hl => ⟨0, false, by simpa using hl⟩)
    have hrun : run (server P) [.arrive req, .settle 0 false, .settle 0 false] ⟨w, []⟩ =
        settle (server P) 0 false (run (server P) [.arrive req, .settle 0 false] ⟨w, []⟩) := rfl
    rw [hrun, show run (server P) [.arrive req, .settle 0 false] ⟨w, []⟩ = _ from served,
      next] at rel
    rw [show settle (server P) 0 false _ = _ from
      settle_last (show _ = [] ++ [_] from rfl) joined, enter_db] at rel
    have new : firstMember ∈ db'.tables.houseUser := member ▸ List.mem_singleton_self _
    rcases rel firstMember new with old | ⟨h', -, -, given⟩
    · cases old
    · exact not_given_of_reshapes reshapes h' given
  · intro plain w u ls _ settles
    have good : (joins (P := P) w.db.tables (req.body.get "enterHouseCode").escape).Good w.next :=
      ⟨rfl, fun r hr => Or.inl hr⟩
    have safe := joinHouse_safe (c := w.context req) route w.db.tables w.next plain good
    have start := Discipline.enter_holds _ _ ⟨w.next, []⟩ (Discipline.idle_holds good) safe
    have holds := Discipline.run_holds ls (fun l hl => by
      obtain ⟨i, lost, rfl⟩ := settles l hl
      trivial) _ start.1
    exact holds.1.1.2

end Houses

section Columns

/-- The routes that update one column, with that column and the body field. -/
def Route.column : Route → Option (UserCol × String)
  | .updateDispl => some (.displayName, "displayName")
  | .updateMobile => some (.phone_num, "newMobile")
  | .updatePaymentMethod => some (.payment_method, "newMethod")
  | .updatePaymentUser => some (.payment_username, "newUsername")
  | _ => none

theorem Sends.column {c : Ctx} {s : Stmt} (sends : Sends P c s) {col : UserCol} {field : String}
    (updates : c.req.route.column = some (col, field)) :
    s.isSelect = true ∨ ∃ id, s.setsUser = some (col, c.req.body.get field, id) := by
  cases sends with
  | select reads => exact Or.inl reads
  | updateUserDisplayName route =>
    rw [route] at updates
    cases updates
    exact Or.inr ⟨_, rfl⟩
  | updateUserPaymentMethod route =>
    rw [route] at updates
    cases updates
    exact Or.inr ⟨_, rfl⟩
  | updateUserPaymentUsername route =>
    rw [route] at updates
    cases updates
    exact Or.inr ⟨_, rfl⟩
  | updateMobile route =>
    rw [route] at updates
    cases updates
    exact Or.inr ⟨_, rfl⟩
  | addUserToHouse _ route =>
    rcases route with route | route <;> simp [route, Route.column] at updates
  | _ => simp_all [Route.column]

/-- An update that names one column leaves the values of every other. -/
theorem update_column {c d : UserCol} {sets : List (UserCol × Rhs UserCol)}
    (only : ∀ s ∈ sets, s.1 = c) (other : d ≠ c) (q : Cond UserCol) (rows : List (Row UserCol)) :
    (update P.collate q sets rows).map (· d) = rows.map (· d) := by
  rw [update, List.map_map]
  refine List.map_congr_left fun r _ => ?_
  simp only [Function.comp_apply]
  split
  · exact assign_frame (fun s hs => only s hs ▸ Ne.symm other) r
  · rfl

/-- No column but one is changed. -/
def keepsColumns (t : Tables) (c : UserCol) : Discipline (server P) where
  Good w := ∀ d, d ≠ c → w.db.tables.user.map (· d) = t.user.map (· d)
  Le _ _ := True
  Allowed _ s _ := s.isSelect = true ∨
    ∃ v id, s.setsUser = some (c, v, id) ∧ ¬ Spills c v.escape
  Permit _ _ _ := True
  refl _ := trivial
  trans _ _ := trivial
  mono _ h := h
  exec_good := by
    intro x s w r w' good allowed he
    obtain ⟨⟨r', db⟩, hx, hw⟩ := Option.map_eq_some_iff.mp he
    cases hw
    refine ⟨?_, trivial⟩
    rcases allowed with reads | ⟨v, id, writes, plain⟩
    · rw [exec_select reads hx]
      exact good
    · have effect := exec_effect hx
      generalize db.tables = t' at effect ⊢
      generalize db.next = n' at effect
      intro d other
      cases effect with
      | @setUser _ _ _ _ sets writes' parsed =>
        cases writes.symm.trans writes'
        have only : ∀ s ∈ sets, s.1 = c := fun s hs => by
          by_contra ne
          exact plain ⟨_, parsed, s, hs, ne⟩
        exact (update_column only other _ _).trans (good d other)
      | createUser => cases writes
      | _ => exact good d other
  refuse_good good := ⟨good, trivial⟩
  perform_good := by
    intro c a w good _
    rw [perform_db]
    exact ⟨good, trivial⟩

/-- The four handlers look their user up and then send their update. -/
theorem handler_column {c : Ctx} {u : SessionUser} (user : c.user = some u) {col : UserCol}
    {field : String} (updates : c.req.route.column = some (col, field)) :
    ∃ stmt k, handler P c =
        .issue (.getUser u.email) (fun _ => .done) (.issue (.getUser u.email) k .done) ∧
      stmt.setsUser = some (col, c.req.body.get field, u.user_id) ∧
      ∀ r, ∃ rest, k (some [r]) = .issue stmt (fun _ => .done) rest := by
  unfold Route.column at updates
  split at updates
  case h_1 route =>
    cases updates
    exact ⟨.updateUserDisplayName (c.req.body.get "displayName") u.user_id, _,
      by simp only [handler, OneRoof.route, route, user]; rfl, rfl, fun r => ⟨_, by rfl⟩⟩
  case h_2 route =>
    cases updates
    exact ⟨.updateMobile (c.req.body.get "newMobile") u.user_id, _,
      by simp only [handler, OneRoof.route, route, user]; rfl, rfl, fun r => ⟨_, by rfl⟩⟩
  case h_3 route =>
    cases updates
    exact ⟨.updateUserPaymentMethod (c.req.body.get "newMethod") u.user_id, _,
      by simp only [handler, OneRoof.route, route, user]; rfl, rfl, fun r => ⟨_, by rfl⟩⟩
  case h_4 route =>
    cases updates
    exact ⟨.updateUserPaymentUsername (c.req.body.get "newUsername") u.user_id, _,
      by simp only [handler, OneRoof.route, route, user]; rfl, rfl, fun r => ⟨_, by rfl⟩⟩
  case h_5 => cases updates

theorem user_sound {r : Row UserCol} (typed : ∀ c, fits c (r c) = true) :
    Integrity P.collate { noTables with user := [r] } := by
  rw [integrity_iff]
  simp [noTables, typed_singleton typed]

/-- Just one user. -/
def oneUser (r : Row UserCol) (typed : ∀ c, fits c (r c) = true) : Database P.collate where
  tables := { noTables with user := [r] }
  next := ⟨1, 1, 1, 1, 1, 1, 1⟩
  sound := user_sound typed

theorem letterUser_typed {n : Int} {x : String} (sample : n = 1 ∧ x = "a" ∨ n = 2 ∧ x = "b")
    (c : UserCol) : fits c (letterUser n x c) = true := by
  rcases sample with ⟨rfl, rfl⟩ | ⟨rfl, rfl⟩ <;> cases c <;> decide

theorem letterUser_avoids (d : UserCol) (v : Value) :
    ∃ n x, (n = 1 ∧ x = "a" ∨ n = 2 ∧ x = "b") ∧ letterUser n x d ≠ v := by
  by_cases h : letterUser 1 "a" d = v
  · refine ⟨2, "b", Or.inr ⟨rfl, rfl⟩, ?_⟩
    rw [← h]
    cases d <;> decide
  · exact ⟨1, "a", Or.inl ⟨rfl, rfl⟩, h⟩

/-- The session of a letter user. -/
def letterSession (n : Int) (x : String) : SessionUser where
  user_id := some n
  email := .str x
  displayName := .str x

theorem exec_oneUser {s : Stmt} {c : UserCol} {v : JsVal} {n : Int} {x : String}
    {sets : List (UserCol × Rhs UserCol)} (typed : ∀ c, fits c (letterUser n x c) = true)
    (writes : s.setsUser = some (c, v, some n))
    (parsed : setTo (column "tblUSER") c v.escape = some sets) :
    ∃ reply db', exec P.collate s (oneUser (letterUser n x) typed) = some (reply, db') ∧
      db'.tables.user = [assign P.collate sets (letterUser n x)] := by
  have undated : ∀ c : UserCol, Columns.type c ≠ .timestamp := by
    intro c
    cases c <;> decide
  have hit : Cond.hits P.collate (.eq .user_id (idLit (some n))) (letterUser n x) = true := by
    simp [Cond.hits_iff, Cond.eval, letterUser, idLit, eqLit]
  have updated : update P.collate (.eq .user_id (idLit (some n))) sets [letterUser n x] =
      [assign P.collate sets (letterUser n x)] := by
    simp [update, hit]
  have sound := user_sound (P := P) (fits_assign P.collate undated sets typed)
  have commits : commit P.collate { noTables with
        user := update P.collate (.eq .user_id (idLit (some n))) sets [letterUser n x] }
      (oneUser (P := P) _ typed).next = some ⟨_, (oneUser (P := P) _ typed).next, sound⟩ := by
    rw [updated]
    exact commit_of_sound _ sound
  obtain ⟨reply, he⟩ := exec_setsUser writes parsed (oneUser _ typed) commits
  exact ⟨reply, _, he, rfl⟩

theorem exec_getUser_letter {n : Int} {x : String}
    (typed : ∀ c, fits c (letterUser n x c) = true) :
    exec P.collate (.getUser (.str x)) (oneUser (letterUser n x) typed) =
      some ([letterUser n x], oneUser (letterUser n x) typed) := by
  have hits : select P.collate (.eq .email (.str x)) [letterUser n x] = [letterUser n x] := by
    simp [select, Cond.hits_iff, Cond.eval, letterUser, eqLit_text]
  exact congrArg (fun rows => some (rows, oneUser (letterUser n x) typed)) hits

theorem column_confined_iff {req : Request} {col : UserCol} {field : String}
    (updates : req.route.column = some (col, field)) :
    ColumnConfined P req col ↔ ¬ Spills col (req.body.get field).escape := by
  constructor
  · rintro confined ⟨sets, parsed, s, hs, ne⟩
    obtain ⟨e, later, rfl, literals⟩ := setTo_cases parsed
    have written : ∃ s' ∈ later, s'.1 = s.1 := by
      rcases List.mem_cons.mp hs with rfl | old
      · exact absurd rfl ne
      · exact ⟨s, old, rfl⟩
    obtain ⟨l, hl⟩ := assign_literals P.collate literals written
    obtain ⟨n, x, sample, changed⟩ := letterUser_avoids s.1 (store s.1 l.value)
    have typed := letterUser_typed sample
    let w := World.fresh P (oneUser (letterUser n x) typed) fun _ => some (letterSession n x)
    obtain ⟨stmt, k, looks, writes, next⟩ :=
      handler_column (P := P) (c := w.context req) (u := letterSession n x) rfl updates
    obtain ⟨w', hdb, -, served⟩ := serve_lookup looks (exec_getUser_letter typed)
    obtain ⟨rest, hrest⟩ := next (letterUser n x)
    obtain ⟨reply, db', he, ht⟩ := exec_oneUser (P := P) typed writes parsed
    have rel := confined w _ [.settle 0 false, .settle 0 false, .settle 0 false] rfl
      (fun l hl => ⟨0, false, by simpa using hl⟩) s.1 ne
    have hrun : run (server P) [.arrive req, .settle 0 false, .settle 0 false, .settle 0 false]
        ⟨w, []⟩ = settle (server P) 0 false (run (server P)
          [.arrive req, .settle 0 false, .settle 0 false] ⟨w, []⟩) := rfl
    rw [hrun, served, hrest, settle_started ((congrArg _ hdb).trans he), ht] at rel
    have same : [assign P.collate ((col, e) :: later) (letterUser n x) s.1] =
        [letterUser n x s.1] := rel
    rw [assign_cons, hl] at same
    exact changed (List.cons.inj same).1.symm
  · intro plain w u ls _ settles
    have good : (keepsColumns (P := P) w.db.tables col).Good w.next := fun _ _ => rfl
    have safe : (keepsColumns w.db.tables col).Safe (w.context req) (handler P (w.context req))
        w.next := by
      refine issues_safe (handler_issues P _) (fun s _ sends => ?_) (fun _ _ => trivial) _
      rcases sends.column updates with reads | ⟨id, writes⟩
      · exact Or.inl reads
      · exact Or.inr ⟨_, id, writes, plain⟩
    have start := Discipline.enter_holds _ _ ⟨w.next, []⟩ (Discipline.idle_holds good) safe
    have holds := Discipline.run_holds ls (fun l hl => by
      obtain ⟨i, lost, rfl⟩ := settles l hl
      trivial) _ start.1
    exact holds.1.1

end Columns

/-- For every body, each of these routes keeps to the row, house or column it names,
in every state and session, exactly when the field it passes on has none of the
shapes that rewrite its statement. -/
theorem parameters_confined_iff (P : Platform) (req : Request) :
    (req.route = .deleteTask → (TaskConfined P req (req.body.get "id") ↔
      ¬ Reshapes (column "tblTASK") TaskCol.task_id (fun _ => False)
        (req.body.get "id").escape)) ∧
    (req.route = .updateTask → (TaskConfined P req (req.body.get "taskId") ↔
      ¬ (setTo (column "tblTASK") TaskCol.task_status (req.body.get "taskStatus").escape ≠ none ∧
        Reshapes (column "tblTASK") TaskCol.task_id (fun _ => False)
          (req.body.get "taskId").escape))) ∧
    (req.route = .deleteComment → (CommentConfined P req (req.body.get "comment_id") ↔
      ¬ Reshapes (column "tblCOMMENT") CommentCol.comment_id (· = .comment_time)
        ((req.body.get "comment_id").bare.bind JsVal.escape))) ∧
    (req.route = .joinHouse → (HouseConfined P req (req.body.get "enterHouseCode") ↔
      ¬ Reshapes (column "tblHOUSE") HouseCol.house_code (fun _ => False)
        (req.body.get "enterHouseCode").escape)) ∧
    ∀ col field, req.route.column = some (col, field) →
      (ColumnConfined P req col ↔ ¬ Spills col (req.body.get field).escape) :=
  ⟨deleteTask_confined_iff, updateTask_confined_iff, deleteComment_confined_iff,
    joinHouse_confined_iff, fun _ _ => column_confined_iff⟩

section Samples

def deleteTaskText : Request := { sid := 0, route := .deleteTask, body := .obj [("id", .str "t")] }

def updateMobileText : Request :=
  { sid := 0, route := .updateMobile, body := .obj [("newMobile", .str "206")] }

/-- With texts in the body a task and a column are kept to. -/
theorem texts_confined :
    TaskConfined samplePlatform deleteTaskText (.str "t") ∧
    ColumnConfined samplePlatform updateMobileText .phone_num := by
  refine ⟨((parameters_confined_iff samplePlatform deleteTaskText).1 rfl).mpr ?_,
    ((parameters_confined_iff samplePlatform updateMobileText).2.2.2.2 _ _ rfl).mpr ?_⟩
  · rintro ⟨name, l, c, items, -⟩
    cases items
  · rintro ⟨sets, parsed, s, hs, ne⟩
    cases parsed
    exact ne (by rw [List.mem_singleton.mp hs])

/-- One user with two comments. -/
def twoComments : Database samplePlatform.collate where
  tables := { noTables with
    user := [letterUser 1 "a"], comment := [equalComment, unequalComment] }
  next := ⟨2, 1, 1, 1, 1, 1, 3⟩
  sound := by decide +kernel

def deleteEvery : Request where
  sid := 0
  route := .deleteComment
  body := .obj [("comment_id", .obj [("comment_id", .num 1)])]

/-- An object for the id makes the condition true of every comment. -/
theorem deleteComment_deletes_every :
    (run (server samplePlatform) [.arrive deleteEvery, .settle 0 false]
      ⟨World.fresh samplePlatform twoComments fun _ => some sampleSession, []⟩
      ).world.db.tables.comment = [] ∧
    ¬ CommentConfined samplePlatform deleteEvery (deleteEvery.body.get "comment_id") := by
  have gone : (run (server samplePlatform) [.arrive deleteEvery, .settle 0 false]
      ⟨World.fresh samplePlatform twoComments fun _ => some sampleSession, []⟩
      ).world.db.tables.comment = [] := by decide +kernel
  refine ⟨gone, fun confined => ?_⟩
  have rel := confined (World.fresh samplePlatform twoComments fun _ => some sampleSession) _
    [.settle 0 false] rfl (fun l hl => ⟨0, false, List.mem_singleton.mp hl⟩)
  dsimp only at rel
  rw [gone] at rel
  rcases rel with same | ⟨i, r, -, ⟨l, items, -⟩, -⟩
  · cases same
  · cases items

end Samples

end OneRoof
