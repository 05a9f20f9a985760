import OneRoof.Runs

/-!
# The life of a task

A task is created incomplete, `removeTask` archives it and marks it complete in one
statement, and `updateTask` writes whatever status the client sends, alone. As
long as that last one changes nothing, status and archive date move together
and every task is in exactly one of the two lists the feed shows.
-/

namespace OneRoof

open Sql Async

variable {P : Platform}

/-- Incomplete and not archived, or complete and archived. -/
structure TaskCycle (r : Row TaskCol) : Prop where
  status : r .task_status = .text "incomplete" ∨ r .task_status = .text "complete"
  archived : r .task_archived_date ≠ .null ↔ r .task_status = .text "complete"

/-- Each task of a user with an email is in one of the two lists of the feed. -/
def ListedOnce (P : Platform) (db : Database P.collate) : Prop :=
  ∀ u ∈ db.tables.user, ∀ email, u .email = .text email →
    ∀ ut ∈ db.tables.userTask, ∀ k ∈ db.tables.task,
      eqValue P.collate (u .user_id) (ut .task_owner_id) = some true →
      eqValue P.collate (k .task_id) (ut .task_id) = some true →
      ∃! status, status ∈ ["incomplete", "complete"] ∧
        ∃ rows : List (Row UserCol × Row UserTaskCol × Row TaskCol),
          exec P.collate (.getTasksForUser (.str email) (.str status)) db = some (rows, db) ∧
            (u, ut, k) ∈ rows

/-- An `updateTask` that completes finds the status it sets in every task it hits. -/
def KeepsStatus (σ : Config P) (l : Label P) : Prop :=
  Label.own P l ∧ ∀ i p status id, l = .settle i false → σ.pending[i]? = some p →
    p.stmt = .updateTask status id → ∀ sets q, p.stmt.setsTask = some (sets, q) →
      ∀ r ∈ σ.world.db.tables.task, q.hits P.collate r = true → assign P.collate sets r = r

theorem createTask_cycle {collate : String → String} {task : NewTask} {row : Row TaskCol}
    (status : task.taskStatus = "incomplete") (filled : taskRow collate task = some row) :
    TaskCycle row := by
  have incomplete : row .task_status = .text "incomplete" := by
    rw [newRow_cell filled (c := .task_status) (v := .str task.taskStatus) (by simp) (by simp) rfl,
      status]
    rfl
  have present : row .task_archived_date = .null := newRow_blank filled (by simp)
  exact ⟨Or.inl incomplete, by simp [incomplete, present]⟩

theorem removeTask_cycle {collate : String → String} (completedDate : String) (r : Row TaskCol) :
    TaskCycle (assign collate [(.task_archived_date, .lit (.str completedDate)),
      (.task_status, .lit (.str "complete"))] r) := by
  have complete : assign collate [(.task_archived_date, .lit (.str completedDate)),
      (.task_status, .lit (.str "complete"))] r .task_status = .text "complete" :=
    assign_cell (l := .str "complete") (by simp) (by simp) r
  have archived : assign collate [(.task_archived_date, .lit (.str completedDate)),
      (.task_status, .lit (.str "complete"))] r .task_archived_date =
        .text (cut 60 completedDate) :=
    assign_cell (l := .str completedDate) (by simp) (by simp) r
  exact ⟨Or.inr complete, by simp [complete, archived]⟩

/-- The tasks that are sent to the database are incomplete. -/
theorem Sends.incomplete {c : Ctx} {task : NewTask} (sends : Sends P c (.createTask task)) :
    task.taskStatus = "incomplete" := by
  generalize hs : Stmt.createTask task = s at sends
  cases sends with
  | select reads =>
    subst hs
    cases reads
  | createTask => rw [Stmt.createTask.inj hs]; rfl
  | _ => cases hs

/-- One completed statement. -/
theorem exec_cycle {c : Ctx} {s : Stmt} (sends : Sends P c s) {db db' : Database P.collate}
    {r : s.Reply} (he : exec P.collate s db = some (r, db'))
    (kept : ∀ status id, s = .updateTask status id → ∀ sets q, s.setsTask = some (sets, q) →
      ∀ r ∈ db.tables.task, q.hits P.collate r = true → assign P.collate sets r = r)
    (cycle : ∀ k ∈ db.tables.task, TaskCycle k) : ∀ k ∈ db'.tables.task, TaskCycle k := by
  have effect := exec_effect he
  generalize ht : db'.tables = t at effect ⊢
  generalize db'.next = n at effect
  cases effect with
  | createTask =>
    obtain ⟨row, filled, inserted⟩ := exec_createTask he
    intro k hk
    rw [← ht, inserted] at hk
    rcases List.mem_append.mp hk with old | new
    · exact cycle k old
    · rw [List.mem_singleton.mp new]
      exact createTask_cycle sends.incomplete filled
  | @setTask _ sets q writes =>
    intro k' hk'
    obtain ⟨k, hk, rfl⟩ := List.mem_map.mp hk'
    split
    · rename_i hit
      cases s with
      | removeTask completedDate id =>
        obtain ⟨q', -, writes⟩ := Option.bind_eq_some_iff.mp writes
        cases writes
        exact removeTask_cycle completedDate k
      | updateTask status id =>
        rw [kept status id rfl sets q writes k hk hit]
        exact cycle k hk
      | _ => cases writes
    · exact cycle k hk
  | _ => exact cycle

/-- One step that keeps the status of every task. -/
theorem step_cycle (σ : Config P) (l : Label P) (keeps : KeepsStatus σ l)
    (h : Sent (fun _ => True) σ ∧ ∀ k ∈ σ.world.db.tables.task, TaskCycle k) :
    Sent (fun _ => True) (step (server P) l σ) ∧
      ∀ k ∈ (step (server P) l σ).world.db.tables.task, TaskCycle k := by
  obtain ⟨sent, cycle⟩ := h
  refine ⟨step_sent l (fun _ _ => trivial) σ sent, ?_⟩
  rcases step_db_cases l keeps.1 σ with same | ⟨i, p, r, hl, hp, he⟩
  · rw [same]
    exact cycle
  · exact exec_cycle (sent p (List.mem_of_getElem? hp)).1.2 he
      (fun status id hs => keeps.2 i p status id hl hp hs) cycle

theorem mem_tasksForUser {collate : String → String} {t : Tables} {email status : String}
    {u : Row UserCol} {ut : Row UserTaskCol} {k : Row TaskCol} :
    (u, ut, k) ∈ tasksForUser collate (.eq (.u .email) (.str email))
        (.eq (.t .task_status) (.str status)) t ↔
      u ∈ t.user ∧ ut ∈ t.userTask ∧ k ∈ t.task ∧
      eqValue collate (u .user_id) (ut .task_owner_id) = some true ∧
      eqValue collate (k .task_id) (ut .task_id) = some true ∧
      eqLit collate (u .email) (.str email) = some true ∧
      eqLit collate (k .task_status) (.str status) = some true := by
  simp only [tasksForUser, List.mem_flatMap, List.mem_map, List.mem_filter, Prod.mk.injEq,
    decide_eq_true_eq, Cond.hits_iff, Cond.eval, taskJoinRow]
  constructor
  · rintro ⟨u', hu, ut', hut, k', ⟨hk, conditions⟩, rfl, rfl, rfl⟩
    exact ⟨hu, hut, hk, conditions⟩
  · rintro ⟨hu, hut, hk, conditions⟩
    exact ⟨u, hu, ut, hut, k, ⟨hk, conditions⟩, rfl, rfl, rfl⟩

theorem listedOnce_of_cycle (apart : P.collate "incomplete" ≠ P.collate "complete")
    {db : Database P.collate} (cycle : ∀ k ∈ db.tables.task, TaskCycle k) : ListedOnce P db := by
  intro u hu email hemail ut hut k hk owner named
  have listed : ∀ status, (∃ rows : List (Row UserCol × Row UserTaskCol × Row TaskCol),
      exec P.collate (.getTasksForUser (.str email) (.str status)) db = some (rows, db) ∧
        (u, ut, k) ∈ rows) ↔ eqLit P.collate (k .task_status) (.str status) = some true := by
    intro status
    constructor
    · rintro ⟨rows, he, mem⟩
      cases he
      exact (mem_tasksForUser.mp mem).2.2.2.2.2.2
    · intro equal
      refine ⟨_, rfl, mem_tasksForUser.mpr ⟨hu, hut, hk, owner, named, ?_, equal⟩⟩
      rw [hemail]
      exact eqLit_text email
  simp only [listed]
  rcases (cycle k hk).status with status | status <;> rw [status]
  · refine ⟨"incomplete", ⟨by simp, eqLit_text _⟩, ?_⟩
    rintro s ⟨mem, equal⟩
    simp only [List.mem_cons, List.not_mem_nil, or_false] at mem
    rcases mem with rfl | rfl
    · rfl
    · exact absurd (by simpa [eqLit] using equal) apart
  · refine ⟨"complete", ⟨by simp, eqLit_text _⟩, ?_⟩
    rintro s ⟨mem, equal⟩
    simp only [List.mem_cons, List.not_mem_nil, or_false] at mem
    rcases mem with rfl | rfl
    · exact absurd (by simpa [eqLit, eq_comm] using equal) apart
    · rfl

/-- In every run in which no `updateTask` changes a status, status and archive date
move together and every task is listed once. -/
theorem task_cycle_kept (P : Platform) (apart : P.collate "incomplete" ≠ P.collate "complete")
    (ls : List (Label P)) (kept : Along (server P) KeepsStatus ls (startUp P)) :
    (∀ k ∈ (run (server P) ls (startUp P)).world.db.tables.task, TaskCycle k) ∧
      ListedOnce P (run (server P) ls (startUp P)).world.db := by
  have cycle := (run_invariant KeepsStatus _ step_cycle kept
    ⟨startUp_sent _, fun _ h => absurd h List.not_mem_nil⟩).2
  exact ⟨cycle, listedOnce_of_cycle apart cycle⟩

/-- The id that is made of zeros only. -/
def zeroId : JsVal := .str (guid zeroDraws)

/-- A chore is added and completed. -/
def choreDone : List (Label samplePlatform) :=
  [.arrive { sid := 0, route := .addTask, body := .obj [("taskName", .str "dishes"),
      ("taskType", .str "Chore"), ("taskDueDate", .str "today"), ("priority", .str "low"),
      ("taskOwner", .arr [])] },
    .settle 0 false, .settle 0 false,
    .arrive { sid := 0, route := .deleteTask, body := .obj [("id", zeroId)], clock := "noon" },
    .settle 0 false]

/-- A run without `updateTask` keeps every status. -/
theorem along_keepsStatus {ls : List (Label P)}
    (own : ls.all (fun l => match l with
      | .arrive q => !(q.route matches .updateTask)
      | .settle _ _ => true
      | .disturb _ => false) = true) {σ : Config P}
    (sent : Sent (fun q => q.route ≠ .updateTask) σ) : Along (server P) KeepsStatus ls σ := by
  induction ls generalizing σ with
  | nil => trivial
  | cons l ls ih =>
    simp only [List.all_cons, Bool.and_eq_true] at own
    have admitted : ∀ q, l = .arrive q → q.route ≠ .updateTask := by
      rintro q rfl route
      simp [route] at own
    refine ⟨⟨?_, ?_⟩, ih own.2 (step_sent l admitted σ sent)⟩
    · cases l <;> simp_all [Label.own]
    · intro i p status id _ hp hs
      obtain ⟨⟨other, sends⟩, -⟩ := sent p (List.mem_of_getElem? hp)
      rw [hs] at sends
      cases sends with
      | select reads => cases reads
      | updateTask route => exact absurd route other

theorem task_cycle_sample :
    (run (server samplePlatform) choreDone (startUp samplePlatform)).world.db.tables.task ≠ [] ∧
    (∀ k ∈ (run (server samplePlatform) choreDone (startUp samplePlatform)).world.db.tables.task,
      TaskCycle k) ∧
    ListedOnce samplePlatform
      (run (server samplePlatform) choreDone (startUp samplePlatform)).world.db :=
  ⟨by decide +kernel, task_cycle_kept samplePlatform (by decide +kernel) choreDone
    (along_keepsStatus (by decide) (startUp_sent _))⟩

/-- The chore is contested after that. -/
def choreContested : List (Label samplePlatform) :=
  choreDone ++ [.arrive { sid := 0, route := .updateTask, body := .obj [
    ("taskStatus", .str "incomplete"), ("taskId", zeroId)] }, .settle 0 false]

/-- A completed chore that is contested is incomplete again and stays archived. -/
theorem contested_stays_archived :
    (∀ l ∈ choreContested, Label.own samplePlatform l) ∧
    ¬ ∀ k ∈ (run (server samplePlatform) choreContested
      (startUp samplePlatform)).world.db.tables.task, TaskCycle k := by
  refine ⟨by decide, fun cycle => ?_⟩
  have broken : ∃ k ∈ (run (server samplePlatform) choreContested
      (startUp samplePlatform)).world.db.tables.task,
      k .task_archived_date ≠ .null ∧ k .task_status = .text "incomplete" := by decide +kernel
  obtain ⟨k, hk, archived, status⟩ := broken
  exact absurd (status.symm.trans ((cycle k hk).archived.mp archived)) (by decide)

end OneRoof
