import OneRoof.Identity

/-!
# Tasks and what hangs on them

A task is one row, and its bill or chore and the links to its owners are rows of
other tables that only share a randomly drawn id with it. The key of `tblTASK`
lets one request past `createTask` for each id, so all that is written under an
id is the work of one request.
-/

namespace OneRoof

open Sql Async Async.Prog Prog

variable {P : Platform}

/-- A scalar as JSON has it: a number that is not whole prints as a numeral. -/
def JsVal.isWord : JsVal → Bool
  | .dec t => (JsVal.textNumber t).isSome
  | v => v.isScalar

/-- Every field is a text or a number or missing, but for the lists of users. -/
def Request.Worded (q : Request) : Prop :=
  ∀ key, key ∉ listFields → (q.body.get key).isWord = true

theorem JsVal.scalar_of_word {v : JsVal} (word : v.isWord = true) : v.isScalar = true := by
  cases v <;> first | rfl | exact word

section TaskType

theorem toString_int_chars (n : Int) {c : Char} (mem : c ∈ (toString n).toList) :
    c = '-' ∨ c.isDigit = true := by
  cases n with
  | ofNat m =>
    have printed : toString (Int.ofNat m) = Nat.repr m := rfl
    simp only [printed, Nat.repr, String.toList_ofList] at mem
    exact Or.inr (Nat.isDigit_of_mem_toDigits (by decide) (by decide) mem)
  | negSucc m =>
    have printed : toString (Int.negSucc m) = "-" ++ Nat.repr (m + 1) := rfl
    simp only [printed, Nat.repr, String.toList_append, String.toList_ofList,
      List.mem_append] at mem
    rcases mem with sign | digit
    · exact Or.inl (List.mem_singleton.mp sign)
    · exact Or.inr (Nat.isDigit_of_mem_toDigits (by decide) (by decide) digit)

theorem toString_int_ne_chore (n : Int) : toString n ≠ "Chore" := by
  intro h
  have mem : 'C' ∈ (toString n).toList := by
    rw [h]
    decide
  rcases toString_int_chars n mem with h | h <;> exact absurd h (by decide)

/-- A type counts as a chore in the handler exactly when it is stored as one. -/
theorem looseEq_chore {v : JsVal} (word : v.isWord = true) :
    v.looseEq (.str "Chore") =
      some (decide (store TaskCol.task_type v.lit.value = .text "Chore")) := by
  have nan : JsVal.textNumber "Chore" = none := by decide +kernel
  have stored : ∀ s, store TaskCol.task_type (.text s) = .text "Chore" ↔ s = "Chore" := fun s =>
    ⟨fun h => (cut_eq (by decide)).mp (Value.text.inj h), fun h => by rw [h]; rfl⟩
  cases v with
  | undefined | null | bool b => decide +revert +kernel
  | num n =>
    have other : store TaskCol.task_type (.int n) ≠ .text "Chore" := fun h =>
      toString_int_ne_chore n ((cut_eq (by decide)).mp (Value.text.inj h))
    simp [JsVal.looseEq, JsVal.isScalar, JsVal.scalarEq, JsVal.toNumber, nan, JsVal.lit,
      JsVal.quoted, Lit.value, other]
  | dec t =>
    have other : t ≠ "Chore" := by
      rintro rfl
      simp [JsVal.isWord, nan] at word
    simp [JsVal.looseEq, JsVal.isScalar, JsVal.scalarEq, JsVal.toNumber, nan, JsVal.lit,
      JsVal.quoted, Lit.value, stored, other]
  | str s =>
    simp [JsVal.looseEq, JsVal.isScalar, JsVal.scalarEq, JsVal.lit, JsVal.quoted, Lit.value,
      stored]
  | arr items => cases word
  | obj fields => cases word

end TaskType

/-- What a task is told by from outside: its id and its type. -/
def Tables.taskKinds (t : Tables) : List (Value × Value) :=
  t.task.map fun k => (k .task_id, k .task_type)

/-- The id names a task that is a chore, or one that is not. -/
def HasKind (collate : String → String) (kinds : List (Value × Value)) (id : Value)
    (chore : Bool) : Prop :=
  ∃ k ∈ kinds, eqValue collate id k.1 = some true ∧ (k.2 = .text "Chore" ↔ chore = true)

theorem HasKind.later {collate : String → String} {kinds kinds' : List (Value × Value)}
    {id : Value} {chore : Bool} (h : HasKind collate kinds id chore) (le : kinds <+: kinds') :
    HasKind collate kinds' id chore := by
  obtain ⟨k, mem, rest⟩ := h
  exact ⟨k, le.subset mem, rest⟩

/-- The creator that a request writes into its links. -/
def Ctx.creator (c : Ctx) : Value :=
  store UserTaskCol.task_creator_id (JsVal.ofInt (c.user.bind SessionUser.user_id)).lit.value

/-- What every step keeps. -/
structure Detailed (w : World P) : Prop where
  chores : ∀ d ∈ w.db.tables.chore, HasKind P.collate w.db.tables.taskKinds (d .task_id) true
  bills : ∀ d ∈ w.db.tables.bill, HasKind P.collate w.db.tables.taskKinds (d .task_id) false
  links : ∀ r ∈ w.db.tables.userTask, ∃ c task packet,
    .completed c (.createTask task) packet ∈ w.log ∧
    r .task_id = .text (cut 100 task.taskID) ∧ r .task_creator_id = c.creator
  created : ∀ c task packet, .completed c (.createTask task) packet ∈ w.log →
    ∃ k ∈ w.db.tables.taskKinds, k.1 = .text (cut 100 task.taskID)
  single : ∀ c task packet c' task' packet', .completed c (.createTask task) packet ∈ w.log →
    .completed c' (.createTask task') packet' ∈ w.log →
    P.collate (cut 100 task.taskID) = P.collate (cut 100 task'.taskID) → c = c'

/-- What has to be there before a row is hung on a task. -/
def Backs (w : World P) (c : Ctx) : Stmt → Prop
  | .updateChoreTable taskID _ =>
    HasKind P.collate w.db.tables.taskKinds (.text (cut 100 taskID)) true
  | .updateBillTable taskID _ =>
    HasKind P.collate w.db.tables.taskKinds (.text (cut 100 taskID)) false
  | .updateUserTaskTable taskID _ _ =>
    ∃ task packet, .completed c (.createTask task) packet ∈ w.log ∧ task.taskID = taskID
  | _ => True

section Exec

variable {c : Ctx} {s : Stmt} {db db' : Database P.collate} {r : s.Reply}

/-- Ids and types of tasks stay what they are. -/
theorem Sends.setsTask_columns (sends : Sends P c s) (worded : c.req.Worded)
    {sets : List (TaskCol × Rhs TaskCol)} {q : Cond TaskCol}
    (writes : s.setsTask = some (sets, q)) :
    ∀ e ∈ sets, e.1 = .task_archived_date ∨ e.1 = .task_status := by
  cases sends with
  | select reads => cases s <;> simp_all [Stmt.isSelect, Stmt.setsTask]
  | removeTask =>
    obtain ⟨q, -, writes⟩ := Option.bind_eq_some_iff.mp writes
    cases writes
    simp
  | updateTask =>
    obtain ⟨status, parsed, writes⟩ := Option.bind_eq_some_iff.mp writes
    obtain ⟨q, -, writes⟩ := Option.bind_eq_some_iff.mp writes
    rw [setTo_scalar _ (JsVal.scalar_of_word (worded _ (by decide)))] at parsed
    cases parsed
    cases writes
    simp
  | _ => cases writes

theorem taskKinds_exec (sends : Sends P c s) (worded : c.req.Worded)
    (he : exec P.collate s db = some (r, db')) :
    db.tables.taskKinds <+: db'.tables.taskKinds := by
  have effect := exec_effect he
  generalize db'.tables = t at effect ⊢
  generalize db'.next = n at effect
  cases effect with
  | @setTask _ sets q writes =>
    have kept : ∀ col, col ≠ .task_archived_date → col ≠ .task_status → ∀ e ∈ sets, e.1 ≠ col := by
      intro col apart apart' e he
      rcases sends.setsTask_columns worded writes e he with hc | hc <;> rw [hc]
      · exact Ne.symm apart
      · exact Ne.symm apart'
    simp only [Tables.taskKinds, update, List.map_map]
    refine (List.map_congr_left fun k _ => ?_).symm ▸ List.prefix_rfl
    simp only [Function.comp_apply]
    split
    · rw [assign_frame (kept .task_id (by decide) (by decide)),
        assign_frame (kept .task_type (by decide) (by decide))]
    · rfl
  | createTask row =>
    simp only [Tables.taskKinds, List.map_append]
    exact List.prefix_append _ _
  | _ => exact List.prefix_rfl

theorem chores_exec (sends : Sends P c s) (worded : c.req.Worded) {w : World P}
    (backs : Backs w c s) (good : Detailed w) (he : exec P.collate s w.db = some (r, db')) :
    ∀ d ∈ db'.tables.chore, HasKind P.collate db'.tables.taskKinds (d .task_id) true := by
  have later := taskKinds_exec sends worded he
  have kept : ∀ d ∈ w.db.tables.chore, HasKind P.collate db'.tables.taskKinds (d .task_id) true :=
    fun d hd => (good.chores d hd).later later
  have effect := exec_effect he
  generalize ht : db'.tables = t at effect kept later ⊢
  generalize db'.next = n at effect
  cases effect with
  | updateChoreTable row =>
    obtain ⟨row', filled, inserted⟩ := exec_updateChoreTable he
    intro d hd
    rw [← ht, inserted] at hd
    rcases List.mem_append.mp hd with old | new
    · exact kept d old
    · rw [List.mem_singleton.mp new, newRow_cell filled (by simp) List.mem_cons_self rfl]
      exact HasKind.later backs later
  | _ => exact kept

theorem bills_exec (sends : Sends P c s) (worded : c.req.Worded) {w : World P}
    (backs : Backs w c s) (good : Detailed w) (he : exec P.collate s w.db = some (r, db')) :
    ∀ d ∈ db'.tables.bill, HasKind P.collate db'.tables.taskKinds (d .task_id) false := by
  have later := taskKinds_exec sends worded he
  have kept : ∀ d ∈ w.db.tables.bill, HasKind P.collate db'.tables.taskKinds (d .task_id) false :=
    fun d hd => (good.bills d hd).later later
  have effect := exec_effect he
  generalize ht : db'.tables = t at effect kept later ⊢
  generalize db'.next = n at effect
  cases effect with
  | updateBillTable row =>
    obtain ⟨amount, row', -, filled, inserted⟩ := exec_updateBillTable he
    intro d hd
    rw [← ht, inserted] at hd
    rcases List.mem_append.mp hd with old | new
    · exact kept d old
    · rw [List.mem_singleton.mp new, newRow_cell filled (by simp) List.mem_cons_self rfl]
      exact HasKind.later backs later
  | _ => exact kept

theorem links_created (sends : Sends P c s) {w : World P} (backs : Backs w c s)
    (good : Detailed w) (he : exec P.collate s w.db = some (r, db')) :
    ∀ r' ∈ db'.tables.userTask, ∃ c' task packet,
      .completed c' (.createTask task) packet ∈ w.log ∧
      r' .task_id = .text (cut 100 task.taskID) ∧ r' .task_creator_id = c'.creator := by
  have effect := exec_effect he
  generalize db'.tables = t at effect ⊢
  generalize db'.next = n at effect
  cases effect with
  | updateUserTaskTable filled =>
    intro r' hr'
    rcases List.mem_append.mp hr' with old | new
    · exact good.links r' old
    obtain ⟨task, packet, created, hid⟩ := backs
    obtain ⟨u, user, creator⟩ := sends.creator
    rw [List.mem_singleton.mp new]
    refine ⟨c, task, packet, created, ?_, ?_⟩
    · rw [hid]
      exact newRow_cell filled (by simp) List.mem_cons_self rfl
    · rw [Ctx.creator, user, Option.bind_some, ← creator]
      exact newRow_cell filled (by simp) (by simp) (JsVal.ofInt_scalar _)
  | _ => exact good.links

/-- The task of a request that got past `createTask`. -/
theorem createTask_kind {task : NewTask} {packet : Packet}
    (he : exec P.collate (.createTask task) db = some (packet, db')) :
    ∃ row, taskRow P.collate task = some row ∧ db'.tables.task = db.tables.task ++ [row] ∧
      row .task_id = .text (cut 100 task.taskID) := by
  obtain ⟨row, filled, inserted⟩ := exec_createTask he
  exact ⟨row, filled, inserted, newRow_cell filled (by simp) List.mem_cons_self rfl⟩

/-- No task had the id of a task that is created. -/
theorem createTask_fresh {task : NewTask} {packet : Packet}
    (he : exec P.collate (.createTask task) db = some (packet, db')) :
    ∀ k ∈ db.tables.taskKinds, ∀ id, k.1 = .text id →
      P.collate id ≠ P.collate (cut 100 task.taskID) := by
  obtain ⟨row, -, inserted, hid⟩ := createTask_kind he
  intro k hk id hkid
  obtain ⟨k', hk', rfl⟩ := List.mem_map.mp hk
  have keyed := db'.sound.task_key
  rw [inserted] at keyed
  have apart := (List.pairwise_append.mp keyed).2.2 k' hk' row List.mem_cons_self
  rw [hid, show k' .task_id = .text id from hkid, ne_eq, eqValue_text] at apart
  exact apart

theorem created_exec (sends : Sends P c s) (worded : c.req.Worded) {w : World P}
    (good : Detailed w) (he : exec P.collate s w.db = some (r, db')) :
    ∀ c' task packet, .completed c' (.createTask task) packet ∈ w.log ++ [.completed c s r] →
      ∃ k ∈ db'.tables.taskKinds, k.1 = .text (cut 100 task.taskID) := by
  intro c' task packet mem
  rcases List.mem_append.mp mem with old | new
  · obtain ⟨k, hk, hid⟩ := good.created c' task packet old
    exact ⟨k, (taskKinds_exec sends worded he).subset hk, hid⟩
  · cases List.mem_singleton.mp new
    obtain ⟨row, -, inserted, hid⟩ := createTask_kind he
    refine ⟨_, List.mem_map_of_mem (f := fun k : Row TaskCol => (k .task_id, k .task_type))
      (a := row) ?_, hid⟩
    rw [inserted]
    simp

theorem single_exec {w : World P} (good : Detailed w)
    (he : exec P.collate s w.db = some (r, db')) :
    ∀ c₁ task₁ packet₁ c₂ task₂ packet₂,
      .completed c₁ (.createTask task₁) packet₁ ∈ w.log ++ [.completed c s r] →
      .completed c₂ (.createTask task₂) packet₂ ∈ w.log ++ [.completed c s r] →
      P.collate (cut 100 task₁.taskID) = P.collate (cut 100 task₂.taskID) → c₁ = c₂ := by
  intro c₁ task₁ packet₁ c₂ task₂ packet₂ mem₁ mem₂ same
  rcases List.mem_append.mp mem₁ with old₁ | new₁ <;>
    rcases List.mem_append.mp mem₂ with old₂ | new₂
  · exact good.single _ _ _ _ _ _ old₁ old₂ same
  · cases List.mem_singleton.mp new₂
    obtain ⟨k, hk, hid⟩ := good.created _ _ _ old₁
    exact absurd same (createTask_fresh he k hk _ hid)
  · cases List.mem_singleton.mp new₁
    obtain ⟨k, hk, hid⟩ := good.created _ _ _ old₂
    exact absurd same.symm (createTask_fresh he k hk _ hid)
  · cases List.mem_singleton.mp new₁
    cases List.mem_singleton.mp new₂
    rfl

end Exec

/-- What is logged as completed, and the tables, are all that counts. -/
theorem Detailed.same {w w' : World P} (good : Detailed w) (hdb : w'.db = w.db)
    (hlog : ∀ c s r, .completed c s r ∈ w'.log ↔ .completed c s r ∈ w.log) : Detailed w' := by
  obtain ⟨chores, bills, links, created, single⟩ := good
  rw [← hdb] at chores bills links created
  refine ⟨chores, bills, fun r hr => ?_, fun c task packet mem => ?_,
    fun c task packet c' task' packet' mem mem' => ?_⟩
  · obtain ⟨c, task, packet, mem, rest⟩ := links r hr
    exact ⟨c, task, packet, (hlog _ _ _).mpr mem, rest⟩
  · exact created c task packet ((hlog _ _ _).mp mem)
  · exact single c task packet c' task' packet' ((hlog _ _ _).mp mem) ((hlog _ _ _).mp mem')

/-- Rows are hung on a task by the request that created it. -/
def detailing (P : Platform) : Discipline (server P) where
  Good := Detailed
  Le w w' := w.db.tables.taskKinds <+: w'.db.tables.taskKinds ∧
    ∀ (c : Ctx) (s : Stmt) (r : s.Reply), .completed c s r ∈ w.log → .completed c s r ∈ w'.log
  Allowed c s w := Sends P c s ∧ c.req.Worded ∧ Backs w c s
  Permit _ _ _ := True
  refl _ := ⟨List.prefix_rfl, fun _ _ _ h => h⟩
  trans h h' := ⟨h.1.trans h'.1, fun c s r mem => h'.2 c s r (h.2 c s r mem)⟩
  mono := by
    intro c s w w' later allowed
    obtain ⟨sends, worded, backs⟩ := allowed
    refine ⟨sends, worded, ?_⟩
    cases s with
    | updateChoreTable => exact HasKind.later backs later.1
    | updateBillTable => exact HasKind.later backs later.1
    | updateUserTaskTable =>
      obtain ⟨task, packet, mem, hid⟩ := backs
      exact ⟨task, packet, later.2 _ _ _ mem, hid⟩
    | _ => trivial
  exec_good := by
    intro c s w r w' good allowed he
    obtain ⟨⟨r', db'⟩, hx, hw⟩ := Option.map_eq_some_iff.mp he
    cases hw
    obtain ⟨sends, worded, backs⟩ := allowed
    refine ⟨⟨chores_exec sends worded backs good hx, bills_exec sends worded backs good hx,
      fun r' hr' => ?_, created_exec sends worded good hx, single_exec good hx⟩,
      taskKinds_exec sends worded hx, fun _ _ _ mem => List.mem_append_left _ mem⟩
    obtain ⟨c', task, packet, mem, rest⟩ := links_created sends backs good hx r' hr'
    exact ⟨c', task, packet, List.mem_append_left _ mem, rest⟩
  refuse_good := by
    intro c s w good
    exact ⟨good.same rfl fun c' s' r => by simp [server], List.prefix_rfl,
      fun _ _ _ mem => List.mem_append_left _ mem⟩
  perform_good := by
    intro c a w good _
    have hdb := perform_db c a w
    refine ⟨good.same hdb fun _ _ _ => perform_completed, ?_, fun _ _ _ => perform_completed.mpr⟩
    rw [hdb]

section Handlers

variable {c : Ctx} {w : World P}

/-- Outside `addTask` nothing is hung on a task. -/
theorem Sends.backs {s : Stmt} (sends : Sends P c s) (other : c.req.route ≠ .addTask)
    (w : World P) : Backs w c s := by
  cases sends with
  | select reads => cases s <;> simp_all [Backs, Stmt.isSelect]
  | updateUserTaskTable route => exact absurd route other
  | updateChoreTable route => exact absurd route other
  | updateBillTable route => exact absurd route other
  | _ => trivial

theorem addTask_detailing (worded : c.req.Worded) (route : c.req.route = .addTask) :
    (detailing P).Safe c (addTask c.req c.user) w := by
  have reply : ∀ (w' : World P) answer user, (detailing P).Safe c (Prog.send answer user) w' :=
    fun w' answer user => safe_send trivial
  refine safe_thenCatch ⟨.createTask route, worded, trivial⟩ (fun w' _ _ => reply w' _ _)
    fun w' packet db _ _ he _ good' => ?_
  obtain ⟨row, filled, inserted, hid⟩ := createTask_kind he
  have type : row .task_type = store TaskCol.task_type (c.req.body.get "taskType").lit.value :=
    newRow_cell filled (by simp) (by simp) (JsVal.scalar_of_word (worded _ (by decide)))
  have kind : ∀ chore : Bool, (row .task_type = .text "Chore" ↔ chore = true) →
      HasKind P.collate db.tables.taskKinds (.text (cut 100 (guid c.req.draws))) chore := by
    refine fun chore hc => ⟨(row .task_id, row .task_type), List.mem_map.mpr ⟨row, ?_, rfl⟩, ?_, hc⟩
    · rw [inserted]
      simp
    · simp [hid]
  refine Discipline.Safe.andThen good' (safe_attempt fun owners _ => ?_) fun w'' later'' _ =>
    safe_attempt fun chore hc => ?_
  · refine safe_startEach (fun o s hs => ?_) safe_done _
    obtain ⟨owner, -, hs⟩ := Option.bind_eq_some_iff.mp hs
    obtain ⟨u, hu, hs⟩ := Option.bind_eq_some_iff.mp hs
    cases hs
    exact ⟨.updateUserTaskTable route hu, worded, _, packet,
      List.mem_append_right _ List.mem_cons_self, rfl⟩
  · rw [looseEq_chore (worded _ (by decide)), ← type] at hc
    cases hc
    split
    · rename_i isChore
      refine safe_query ⟨.updateChoreTable route, worded, ?_⟩ (reply w'' _ _)
        (fun _ _ _ => trivial) fun w₃ _ _ _ _ _ _ good₃ => ?_
      · exact HasKind.later (kind true (by simpa using isChore)) later''.1
      · exact Discipline.Safe.recover good₃ (reply _ _ _) fun _ _ _ => safe_done
    · rename_i isBill
      refine safe_attempt fun amount _ => safe_start ⟨.updateBillTable route, worded, ?_⟩
        (reply w'' _ _)
      exact HasKind.later (kind false (by simpa using isBill)) later''.1

theorem handler_detailing (worded : c.req.Worded) (good : Detailed w) :
    (detailing P).Safe c (handler P c) w := by
  by_cases route : c.req.route = .addTask
  · have added := addTask_detailing (w := w) worded route
    rw [handler, OneRoof.route, route]
    exact added.recover good fun _ _ _ => safe_send trivial
  · have allowed : ∀ s w', Sends P c s → (detailing P).Allowed c s w' := fun s w' sends =>
      ⟨sends, worded, sends.backs route w'⟩
    exact issues_safe (handler_issues P c) allowed (fun _ _ => trivial) w

end Handlers

/-- A step of the server itself that takes in only such requests. -/
structure WordedLabel (P : Platform) (l : Label P) : Prop where
  own : Label.own P l
  worded : ∀ q, l = .arrive q → q.Worded

theorem worded_admits {l : Label P} (worded : WordedLabel P l) : (detailing P).Admits l := by
  cases l with
  | settle i lost => trivial
  | disturb db => exact absurd worded.own id
  | arrive q =>
    intro w good
    have good' : Detailed w.next := good.same rfl fun _ _ _ => Iff.rfl
    exact ⟨good', ⟨List.prefix_rfl, fun _ _ _ h => h⟩,
      handler_detailing (c := w.context q) (worded.worded q rfl) good'⟩

theorem startUp_detailed : Detailed (startUp P).world :=
  { chores := fun _ h => absurd h List.not_mem_nil
    bills := fun _ h => absurd h List.not_mem_nil
    links := fun _ h => absurd h List.not_mem_nil
    created := fun _ _ _ h => absurd h List.not_mem_nil
    single := fun _ _ _ _ _ _ h => absurd h List.not_mem_nil }

/-- A row names a task by its id. -/
def Names (collate : String → String) (id : Value) (k : Row TaskCol) : Bool :=
  eqValue collate id (k .task_id) = some true

/-- Bills, chores and links fit the tasks they hang on. -/
structure DetailsConsistent (collate : String → String) (t : Tables) : Prop where
  one : ∀ k ∈ t.task, (t.bill.filter fun d => Names collate (d .task_id) k).length +
    (t.chore.filter fun d => Names collate (d .task_id) k).length ≤ 1
  chores : ∀ d ∈ t.chore, ∃ k ∈ t.task, Names collate (d .task_id) k ∧
    k .task_type = .text "Chore"
  bills : ∀ d ∈ t.bill, ∃ k ∈ t.task, Names collate (d .task_id) k ∧
    k .task_type ≠ .text "Chore"
  links : ∀ r ∈ t.userTask, ∃ k ∈ t.task, Names collate (r .task_id) k
  creators : ∀ k ∈ t.task, ∀ r ∈ t.userTask, ∀ r' ∈ t.userTask, Names collate (r .task_id) k →
    Names collate (r' .task_id) k → r .task_creator_id = r' .task_creator_id

section Consistent

variable {collate : String → String}

theorem HasKind.task {t : Tables} {id : Value} {chore : Bool}
    (h : HasKind collate t.taskKinds id chore) : ∃ k ∈ t.task, Names collate id k ∧
      (k .task_type = .text "Chore" ↔ chore = true) := by
  obtain ⟨_, mem, equal, kind⟩ := h
  obtain ⟨k, hk, rfl⟩ := List.mem_map.mp mem
  exact ⟨k, hk, decide_eq_true equal, kind⟩

/-- One id names one task. -/
theorem Names.eq {db : Database collate} {id : String} {k k' : Row TaskCol}
    (hk : k ∈ db.tables.task) (hk' : k' ∈ db.tables.task)
    (names : Names collate (.text id) k = true) (names' : Names collate (.text id) k' = true) :
    k = k' := by
  refine db.sound.task_key.eq_of_key hk hk' ?_
  obtain ⟨a, ha⟩ := text_cell (c := TaskCol.task_id) (m := 100) rfl rfl db.sound.task_typed hk
  obtain ⟨b, hb⟩ := text_cell (c := TaskCol.task_id) (m := 100) rfl rfl db.sound.task_typed hk'
  simp only [Names, ha, hb, eqValue_text, decide_eq_true_eq] at names names' ⊢
  exact names.symm.trans names'

/-- Of rows whose ids are keys, one at most names a given task. -/
theorem filter_names_le_one {κ : Type} {key : κ} {rows : List (Row κ)}
    (keyed : Keyed collate key rows) (texts : ∀ d ∈ rows, ∃ s, d key = .text s) {k : Row TaskCol}
    {id : String} (hid : k .task_id = .text id) :
    (rows.filter fun d => Names collate (d key) k).length ≤ 1 := by
  have apart : (rows.filter fun d => Names collate (d key) k).Pairwise
      fun d d' => eqValue collate (d key) (d' key) ≠ some true := keyed.filter _
  generalize hf : rows.filter (fun d => Names collate (d key) k) = found at apart
  have named : ∀ d ∈ found, ∃ s, d key = .text s ∧ collate s = collate id := by
    intro d hd
    rw [← hf] at hd
    obtain ⟨mem, names⟩ := List.mem_filter.mp hd
    obtain ⟨s, hs⟩ := texts d mem
    exact ⟨s, hs, by simpa [Names, hid, hs] using names⟩
  match found with
  | [] => exact Nat.zero_le _
  | [_] => exact Nat.le_refl _
  | d :: d' :: _ =>
    obtain ⟨s, hs, equal⟩ := named d (by simp)
    obtain ⟨s', hs', equal'⟩ := named d' (by simp)
    have := (List.pairwise_cons.mp apart).1 d' (by simp)
    rw [hs, hs', ne_eq, eqValue_text] at this
    exact absurd (equal.trans equal'.symm) this

end Consistent

theorem Detailed.consistent {w : World P} (good : Detailed w) :
    DetailsConsistent P.collate w.db.tables := by
  have sound := w.db.sound
  have bill_id : ∀ d ∈ w.db.tables.bill, ∃ s, d .task_id = .text s := fun d hd =>
    text_cell (m := 100) rfl rfl sound.bill_typed hd
  have chore_id : ∀ d ∈ w.db.tables.chore, ∃ s, d .task_id = .text s := fun d hd =>
    text_cell (m := 100) rfl rfl sound.chore_typed hd
  refine ⟨fun k hk => ?_, fun d hd => ?_, fun d hd => ?_, fun r hr => ?_,
    fun k hk r hr r' hr' names names' => ?_⟩
  · obtain ⟨id, hid⟩ := text_cell (c := TaskCol.task_id) (m := 100) rfl rfl sound.task_typed hk
    have bills := filter_names_le_one sound.bill_key bill_id hid
    have chores := filter_names_le_one sound.chore_key chore_id hid
    by_contra two
    obtain ⟨b, hb⟩ := List.exists_mem_of_length_pos
      (show 0 < (w.db.tables.bill.filter fun d => Names P.collate (d .task_id) k).length by omega)
    obtain ⟨d, hd⟩ := List.exists_mem_of_length_pos
      (show 0 < (w.db.tables.chore.filter fun d => Names P.collate (d .task_id) k).length by omega)
    obtain ⟨hb, bk⟩ := List.mem_filter.mp hb
    obtain ⟨hd, dk⟩ := List.mem_filter.mp hd
    obtain ⟨kb, hkb, bkb, typeb⟩ := (good.bills b hb).task
    obtain ⟨kd, hkd, dkd, typed⟩ := (good.chores d hd).task
    obtain ⟨s, hs⟩ := bill_id b hb
    obtain ⟨s', hs'⟩ := chore_id d hd
    rw [hs] at bk bkb
    rw [hs'] at dk dkd
    have same : kb = kd := (Names.eq hkb hk bkb bk).trans (Names.eq hk hkd dk dkd)
    rw [same] at typeb
    exact absurd (typeb.mp (typed.mpr rfl)) (by simp)
  · obtain ⟨k, hk, names, type⟩ := (good.chores d hd).task
    exact ⟨k, hk, names, type.mpr rfl⟩
  · obtain ⟨k, hk, names, type⟩ := (good.bills d hd).task
    exact ⟨k, hk, names, fun h => by simpa using type.mp h⟩
  · obtain ⟨k, hk, equal⟩ := (sound.userTask_task r hr).resolve_left fun h => by
      obtain ⟨s, hs⟩ := text_cell (c := UserTaskCol.task_id) (m := 100) rfl rfl
        sound.userTask_typed hr
      rw [hs] at h
      cases h
    exact ⟨k, hk, decide_eq_true equal⟩
  · obtain ⟨c, task, packet, mem, hid, creator⟩ := good.links r hr
    obtain ⟨c', task', packet', mem', hid', creator'⟩ := good.links r' hr'
    obtain ⟨id, hk⟩ := text_cell (c := TaskCol.task_id) (m := 100) rfl rfl sound.task_typed hk
    simp only [Names, hid, hid', hk, eqValue_text, decide_eq_true_eq] at names names'
    rw [creator, creator', good.single c task packet c' task' packet' mem mem'
      (names.trans names'.symm)]

/-- However requests interleave and whatever ids are drawn, bills, chores and links fit
their tasks. -/
theorem task_details_consistent (P : Platform) (ls : List (Label P))
    (worded : ∀ l ∈ ls, WordedLabel P l) :
    DetailsConsistent P.collate (run (server P) ls (startUp P)).world.db.tables :=
  Detailed.consistent (Discipline.run_holds ls (fun l hl => worded_admits (worded l hl)) _
    (Discipline.idle_holds startUp_detailed)).1.1

/-- A check that is enough for a request to have such fields. -/
def Label.wordly : Label P → Bool
  | .arrive q => match q.body with
    | .obj fields => fields.all fun f => f.1 ∈ listFields || f.2.isWord
    | _ => false
  | .settle _ _ => true
  | .disturb _ => false

theorem worded_of_wordly {ls : List (Label P)} (h : ls.all Label.wordly = true) :
    ∀ l ∈ ls, WordedLabel P l := by
  intro l hl
  have wordly := List.all_eq_true.mp h l hl
  cases l with
  | arrive q =>
    refine ⟨trivial, fun q' hq key single => ?_⟩
    cases hq
    simp only [Label.wordly] at wordly
    split at wordly
    · rename_i fields body
      rw [body]
      rcases JsVal.get_of_all wordly key with missing | word
      · rw [missing]
        rfl
      · simpa [single] using word
    · cases wordly
  | settle i lost => exact ⟨trivial, fun q hq => nomatch hq⟩
  | disturb db => cases wordly

/-- Ann signs up and adds a chore and a bill at once, and the same id is drawn for both. -/
def oneIdTwice : List (Label samplePlatform) :=
  [.arrive { sid := 0, route := .signup, body := .obj [("email", .str "ann@x"),
      ("password", .str "pw"), ("confirmPass", .str "pw"), ("displayName", .str "Ann")] },
    .settle 0 false, .settle 0 false, .settle 0 false, .settle 0 false, .settle 0 false,
    .arrive { sid := 0, route := .addTask, body := .obj [("taskName", .str "dishes"),
      ("taskType", .str "Chore"), ("taskDueDate", .str "today"), ("priority", .str "low"),
      ("taskOwner", .arr [.obj [("user_id", .num 1)]])] },
    .arrive { sid := 0, route := .addTask, body := .obj [("taskName", .str "rent"),
      ("taskType", .str "Bill"), ("taskDueDate", .str "today"), ("amount", .num 5),
      ("taskOwner", .arr [.obj [("user_id", .num 1)]])] },
    .settle 0 false, .settle 0 false, .settle 0 false, .settle 0 false]

theorem task_details_sample :
    (run (server samplePlatform) oneIdTwice (startUp samplePlatform)).world.db.tables.chore ≠ [] ∧
    (run (server samplePlatform) oneIdTwice
      (startUp samplePlatform)).world.db.tables.userTask ≠ [] ∧
    DetailsConsistent samplePlatform.collate
      (run (server samplePlatform) oneIdTwice (startUp samplePlatform)).world.db.tables :=
  ⟨by decide +kernel, by decide +kernel, task_details_consistent samplePlatform oneIdTwice
    (worded_of_wordly (by decide +kernel))⟩

end OneRoof
