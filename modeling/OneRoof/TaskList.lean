import OneRoof.Feed

/-!
# The list of the tasks

Six callbacks assign `$scope.tasks` or extend it. The answers to `/api/tasks` hold a list
of tasks for every user asked for, and the page shows the elements of `$scope.tasks` as
tasks: only the callback of `showEveryone` takes the lists apart.
-/

namespace OneRoof

open JsVal Feed

/-- A task row: it has a `task_id`. -/
def JsVal.isTask (v : JsVal) : Bool := !(v.get "task_id" matches .undefined)

/-- The rows of an answer to `/api/tasks`. -/
def JsVal.rows (data : JsVal) : List JsVal := data.items.flatMap items

/-- An array of arrays of task rows, one for each user. -/
def Lists (data : JsVal) (users : Nat) : Prop :=
  ∃ lists : List (List JsVal), data = .arr (lists.map .arr) ∧ lists.length = users ∧
    ∀ rows ∈ lists, ∀ v ∈ rows, v.isTask = true

/-- What can come as the answer to a request: for one user there is one list. -/
def Call.Expects (data : JsVal) : Call → Prop
  | .startUp | .showPersonal | .showHistory | .addedTask | .completedTask => Lists data 1
  | .initialTasks | .showEveryone => ∃ users, Lists data users
  | _ => True

/-- A request and its answer. -/
structure Heard where
  post : Post
  data : JsVal

/-- The controller and its requests in flight. Of what has been answered, `recent` is what was
answered after the last call of `showEveryone`. -/
structure TaskList where
  feed : Feed
  waiting : List Post
  heard : List Heard := []
  recent : List Heard := []
  clicked : Bool := false

namespace TaskList

/-- The calls that the list of the tasks is about. -/
def Concerns : Click → Bool
  | .showPersonal | .showHistory | .addTask | .completeTask _ | .showEveryone => true
  | _ => false

def start (currentTask : JsVal) : TaskList :=
  { feed := Feed.start currentTask, waiting := (Feed.start currentTask).startPosts }

def click (m : Click) (s : TaskList) : TaskList :=
  let (feed, posts) := s.feed.click m
  let s := { s with feed, waiting := s.waiting ++ posts }
  if m matches .showEveryone then { s with recent := [], clicked := true } else s

/-- The answer to a request in flight comes. -/
def receive (i : Nat) (post : Post) (data : JsVal) (s : TaskList) : TaskList :=
  let (feed, posts) := s.feed.answered post.call data
  { s with
    feed, waiting := s.waiting.eraseIdx i ++ posts, heard := s.heard ++ [⟨post, data⟩]
    recent := s.recent ++ [⟨post, data⟩] }

/-- A request in flight is answered with an error. -/
def reject (i : Nat) (s : TaskList) : TaskList := { s with waiting := s.waiting.eraseIdx i }

/-- The states of the page, from its start on. -/
inductive Reached (currentTask : JsVal) : TaskList → Prop
  | start : Reached currentTask (start currentTask)
  | loadUsers {s : TaskList} (reached : Reached currentTask s) (data : JsVal) :
      Reached currentTask { s with feed := s.feed.loadUsers data }
  | click {s : TaskList} (reached : Reached currentTask s) (m : Click)
      (concerns : Concerns m = true) : Reached currentTask (s.click m)
  | receive {s : TaskList} (reached : Reached currentTask s) {i : Nat} {post : Post}
      (waits : s.waiting[i]? = some post) {data : JsVal} (expected : post.call.Expects data) :
      Reached currentTask (s.receive i post data)
  | reject {s : TaskList} (reached : Reached currentTask s) (i : Nat) :
      Reached currentTask (s.reject i)

/-- A row that was returned for the current value of `statusType`. -/
def Returned (s : TaskList) (v : JsVal) : Prop :=
  ∃ e ∈ s.heard, e.post.route = .tasks ∧ e.post.body.get "status" = s.feed.statusType.js ∧
    v ∈ e.data.rows

/-- Empty, or a task row. -/
def Settled (v : JsVal) : Prop := v.truthy = false ∨ v.isTask = true

/-- What the list and the selection are meant to be. -/
structure Consistent (s : TaskList) : Prop where
  rows : ∀ v ∈ s.feed.tasks.items, v.isTask = true ∧ s.Returned v
  selected : Settled s.feed.selectedTask

/-- What an answer adds to the list once `showEveryone` has made it an array. -/
def shown (e : Heard) : List JsVal := match e.post.call with
  | .showEveryone => if e.data.firstFilled = some true then e.data.rows else []
  | .addTask => if e.data.firstUnlikeZero = some true then [e.data] else []
  | _ => []

/-- An answer that puts no list where a task is expected. -/
def Flat (clicked : Bool) (e : Heard) : Prop := match e.post.call with
  | .startUp | .showPersonal | .showHistory => e.data.firstFilled ≠ some true
  | .addedTask | .completedTask => False
  | _ => clicked = true → ∀ v ∈ shown e, v.isTask = true

/-- Something in the list is not a task. -/
def Stray (tasks : JsVal) : Prop := ∃ v vs, tasks = .arr vs ∧ v ∈ vs ∧ v.isTask = false

/-- An answer that is not flat has come. -/
structure Strayed (s : TaskList) : Prop where
  answer : ∃ e ∈ s.recent, ¬ Flat s.clicked e
  tasks : Stray s.feed.tasks

/-- Everything that came since was flat. -/
structure Tidy (currentTask : JsVal) (s : TaskList) : Prop where
  flat : ∀ e ∈ s.recent, Flat s.clicked e
  tasks : s.feed.tasks = if s.clicked then .arr (s.recent.flatMap shown) else .undefined
  selected : if s.clicked then s.feed.selectedTask = .undefined
    else (Settled s.feed.selectedTask ↔ Settled currentTask)

section Answers

variable {currentTask : JsVal} {s : TaskList} {post : Post} {data : JsVal}

theorem rows_lists (lists : List (List JsVal)) :
    (JsVal.arr (lists.map .arr)).rows = lists.flatten := by
  simp only [JsVal.rows, items, List.flatMap_map]
  exact List.flatMap_id

/-- What an answer makes of the list. -/
def listAfter (call : Call) (data tasks : JsVal) : JsVal := match call with
  | .startUp | .showPersonal | .showHistory => if data.firstFilled = some true then data else tasks
  | .addedTask | .completedTask => data
  | .showEveryone =>
    if data.firstFilled = some true then pushEach data.items tasks else tasks
  | .addTask =>
    if data.firstUnlikeZero = some true then (tasks.push data).getD tasks else tasks
  | _ => tasks

theorem firstFilled_of_elem0 (missing : data.elem0 = none) : data.firstFilled = none := by
  simp [firstFilled, missing]

theorem answered_tasks {call : Call} (array : call = .showEveryone → ∃ lists, data = .arr lists)
    (feed : Feed) : (feed.answered call data).1.tasks = listAfter call data feed.tasks := by
  cases call with
  | startUp =>
    simp only [answered, startUpAnswered, listAfter]
    split <;> rename_i filled
    · rw [if_pos filled]
      split <;> rfl
    · rw [if_neg filled]
  | showPersonal =>
    simp only [answered, showPersonalAnswered, listAfter]
    split <;> rename_i first
    · rw [firstFilled_of_elem0 first]
      rfl
    · split <;> rename_i filled
      · rw [if_pos filled]
      · rw [if_neg filled]
        split <;> rfl
  | showHistory =>
    simp only [answered, showHistoryAnswered, listAfter]
    split <;> rename_i filled
    · rw [if_pos filled]
      rfl
    · rw [if_neg filled]
  | addedTask => rfl
  | completedTask =>
    simp only [answered, completedTaskAnswered, listAfter]
    split <;> rfl
  | showEveryone =>
    obtain ⟨lists, rfl⟩ := array rfl
    simp only [answered, showEveryoneAnswered, listAfter, items]
    cases filled : (arr lists).firstFilled with
    | none => rfl
    | some full => cases full <;> rfl
  | addTask =>
    simp only [answered, addTaskAnswered, listAfter]
    cases counted : data.firstUnlikeZero with
    | none => rfl
    | some unlike => cases unlike <;> cases pushed : feed.tasks.push data <;> rfl
  | addComment =>
    simp only [answered, addCommentAnswered, listAfter]
    split <;> rfl
  | _ => rfl

/-- An answer to a request for one user, put where a task is expected. -/
theorem Lists.stray (lists : Lists data 1) : Stray data := by
  obtain ⟨lists, rfl, one, -⟩ := lists
  obtain ⟨rows, rfl⟩ := List.length_eq_one_iff.mp one
  exact ⟨.arr rows, _, rfl, List.mem_singleton_self _, rfl⟩

/-- What does not belong into the list stays there. -/
theorem Stray.listAfter {tasks : JsVal} (stray : Stray tasks)
    (expected : post.call.Expects data) : Stray (listAfter post.call data tasks) := by
  obtain ⟨v, vs, rfl, mem, bad⟩ := stray
  have kept : ∀ more, Stray (.arr (vs ++ more)) := fun more =>
    ⟨v, _, rfl, List.mem_append_left more mem, bad⟩
  have same : Stray (.arr vs) := ⟨v, vs, rfl, mem, bad⟩
  unfold TaskList.listAfter
  generalize post.call = call at expected ⊢
  cases call with
  | startUp | showPersonal | showHistory =>
    dsimp only
    split
    · exact Lists.stray expected
    · exact same
  | addedTask | completedTask => exact Lists.stray expected
  | showEveryone =>
    obtain ⟨users, lists, rfl, -⟩ := expected
    dsimp only
    split
    · rw [items, pushEach_lists]
      exact kept _
    · exact same
  | addTask =>
    dsimp only
    split
    · exact kept _
    · exact same
  | _ => exact same

/-- An answer that is not flat puts something into the list that does not belong there. -/
theorem stray_of_not_flat {clicked : Bool} {tasks : JsVal} (expected : post.call.Expects data)
    (array : clicked = true → ∃ vs, tasks = .arr vs) (raised : ¬ Flat clicked ⟨post, data⟩) :
    Stray (listAfter post.call data tasks) := by
  unfold TaskList.listAfter
  simp only [Flat, shown] at raised
  generalize post.call = call at expected raised ⊢
  cases call with
  | startUp | showPersonal | showHistory =>
    rw [if_pos (Decidable.not_not.mp raised)]
    exact Lists.stray expected
  | addedTask | completedTask => exact Lists.stray expected
  | showEveryone =>
    obtain ⟨users, lists, rfl, -, tasks⟩ := expected
    refine absurd (fun _ v shows => ?_) raised
    dsimp only at shows
    split at shows
    · rw [rows_lists] at shows
      obtain ⟨rows, listed, mem⟩ := List.mem_flatten.mp shows
      exact tasks rows listed v mem
    · cases shows
  | addTask =>
    simp only [Classical.not_imp, not_forall] at raised
    obtain ⟨clicks, v, shows, bad⟩ := raised
    obtain ⟨vs, rfl⟩ := array clicks
    split at shows
    · rename_i counted
      cases List.mem_singleton.mp shows
      rw [if_pos counted]
      exact ⟨data, _, rfl, List.mem_append_right vs (List.mem_singleton_self _), by simpa using bad⟩
    · cases shows
  | _ => exact absurd (fun _ _ mem => nomatch mem) raised

/-- What a flat answer adds. -/
theorem listAfter_flat {clicked : Bool} {tasks : List JsVal} (expected : post.call.Expects data)
    (flat : Flat clicked ⟨post, data⟩) :
    listAfter post.call data (if clicked then .arr tasks else .undefined) =
      if clicked then .arr (tasks ++ shown ⟨post, data⟩) else .undefined := by
  unfold TaskList.listAfter
  simp only [Flat, shown] at flat ⊢
  generalize post.call = call at expected flat ⊢
  cases call with
  | startUp | showPersonal | showHistory =>
    rw [if_neg flat, List.append_nil]
  | addedTask | completedTask => exact flat.elim
  | showEveryone =>
    obtain ⟨users, lists, rfl, -⟩ := expected
    cases clicked with
    | false =>
      dsimp only
      split
      · exact pushEach_undefined _
      · rfl
    | true =>
      dsimp only
      split
      · rw [rows_lists]
        exact pushEach_lists lists tasks
      · rw [List.append_nil]
  | addTask =>
    cases clicked with
    | false =>
      dsimp only
      split <;> rfl
    | true =>
      dsimp only
      split
      · rfl
      · rw [List.append_nil]
  | _ => simp

/-- A flat answer leaves the selection, but for the text `undefined`. -/
theorem answered_selected {clicked : Bool} (expected : post.call.Expects data)
    (flat : Flat clicked ⟨post, data⟩) (feed : Feed) :
    (feed.answered post.call data).1.selectedTask = feed.selectedTask ∨
      feed.selectedTask = .str "undefined" ∧
        ∃ rows, (feed.answered post.call data).1.selectedTask = .arr rows := by
  simp only [Flat] at flat
  generalize post.call = call at expected flat ⊢
  cases call with
  | startUp =>
    left
    simp only [answered, startUpAnswered]
  | showHistory =>
    left
    simp only [answered, showHistoryAnswered]
  | showPersonal =>
    obtain ⟨lists, rfl, one, -⟩ := expected
    obtain ⟨rows, rfl⟩ := List.length_eq_one_iff.mp one
    by_cases text : feed.selectedTask = .str "undefined"
    · refine Or.inr ⟨text, rows, ?_⟩
      simp only [answered, showPersonalAnswered, text]
      rfl
    · left
      simp only [answered, showPersonalAnswered]
      rfl
  | addedTask | completedTask => exact flat.elim
  | showEveryone =>
    left
    simp only [answered, showEveryoneAnswered]
    split <;> rfl
  | addTask =>
    left
    simp only [answered, addTaskAnswered]
    split <;> rfl
  | addComment =>
    left
    simp only [answered, addCommentAnswered]
    split <;> rfl
  | _ => exact Or.inl rfl

end Answers

section Runs

variable {currentTask : JsVal} {s : TaskList}

/-- What holds of the list from the start on. -/
def Sound (currentTask : JsVal) (s : TaskList) : Prop := s.Strayed ∨ Tidy currentTask s

theorem Sound.frame {s' : TaskList} (sound : Sound currentTask s) (recent : s'.recent = s.recent)
    (clicked : s'.clicked = s.clicked) (tasks : s'.feed.tasks = s.feed.tasks)
    (selected : s'.feed.selectedTask = s.feed.selectedTask) : Sound currentTask s' := by
  rcases sound with strayed | tidy
  · refine Or.inl ⟨?_, ?_⟩
    · rw [recent, clicked]
      exact strayed.answer
    · rw [tasks]
      exact strayed.tasks
  · refine Or.inr ⟨?_, ?_, ?_⟩
    · rw [recent, clicked]
      exact tidy.flat
    · rw [recent, clicked, tasks]
      exact tidy.tasks
    · rw [clicked, selected]
      exact tidy.selected

theorem start_sound (currentTask : JsVal) : Sound currentTask (start currentTask) := by
  refine Or.inr ⟨(fun _ mem => nomatch mem), ?_, ?_⟩
  · simp only [start, Feed.start]
    split <;> rfl
  · change Settled (Feed.start currentTask).selectedTask ↔ Settled currentTask
    unfold Feed.start
    cases currentTask with
    | undefined => exact iff_of_true (Or.inl rfl) (Or.inl rfl)
    | _ => rfl

theorem loadEach_frame (curUserName : JsVal) (members : List JsVal) (feed : Feed) :
    (loadEach curUserName members feed).tasks = feed.tasks ∧
      (loadEach curUserName members feed).selectedTask = feed.selectedTask := by
  induction members generalizing feed with
  | nil => exact ⟨rfl, rfl⟩
  | cons i members ih =>
    simp only [loadEach]
    split
    · exact ⟨rfl, rfl⟩
    · exact ih _

theorem loadUsers_frame (data : JsVal) (feed : Feed) :
    (feed.loadUsers data).tasks = feed.tasks ∧
      (feed.loadUsers data).selectedTask = feed.selectedTask := by
  unfold loadUsers
  split
  · split
    · exact loadEach_frame _ _ feed
    · exact ⟨rfl, rfl⟩
  · exact ⟨rfl, rfl⟩

theorem Sound.click (sound : Sound currentTask s) {m : Click} (concerns : Concerns m = true) :
    Sound currentTask (s.click m) := by
  cases m with
  | showEveryone => exact Or.inr ⟨(fun _ mem => nomatch mem), rfl, rfl⟩
  | showPersonal | showHistory | addTask | completeTask => exact sound.frame rfl rfl rfl rfl
  | _ => cases concerns

theorem Tidy.array (tidy : Tidy currentTask s) (clicked : s.clicked = true) :
    ∃ vs, s.feed.tasks = .arr vs :=
  ⟨_, by rw [tidy.tasks, if_pos clicked]⟩

theorem not_settled_undefined : ¬ Settled (.str "undefined") := by
  rintro (falsy | task)
  · exact absurd falsy (by decide)
  · cases task

theorem not_settled_array (rows : List JsVal) : ¬ Settled (.arr rows) := by
  rintro (falsy | task)
  · cases falsy
  · cases task

theorem Sound.receive (sound : Sound currentTask s) (i : Nat) {post : Post} {data : JsVal}
    (expected : post.call.Expects data) : Sound currentTask (s.receive i post data) := by
  have array : post.call = .showEveryone → ∃ lists, data = .arr lists := by
    intro everyone
    rw [everyone] at expected
    obtain ⟨users, lists, rfl, -⟩ := expected
    exact ⟨_, rfl⟩
  have tasks : (s.receive i post data).feed.tasks = listAfter post.call data s.feed.tasks :=
    answered_tasks array s.feed
  have last : (⟨post, data⟩ : Heard) ∈ (s.receive i post data).recent :=
    List.mem_append_right _ (List.mem_singleton_self _)
  rcases sound with strayed | tidy
  · obtain ⟨e, mem, raised⟩ := strayed.answer
    refine Or.inl ⟨⟨e, List.mem_append_left _ mem, raised⟩, ?_⟩
    rw [tasks]
    exact strayed.tasks.listAfter expected
  · by_cases flat : Flat s.clicked ⟨post, data⟩
    · refine Or.inr ⟨?_, ?_, ?_⟩
      · intro e mem
        rcases List.mem_append.mp mem with old | new
        · exact tidy.flat e old
        · cases List.mem_singleton.mp new
          exact flat
      · rw [tasks, tidy.tasks, listAfter_flat expected flat]
        simp only [TaskList.receive, List.flatMap_append, List.flatMap_singleton]
      · have selected := tidy.selected
        rcases answered_selected expected flat s.feed with same | ⟨text, rows, list⟩
        · simp only [TaskList.receive, same]
          exact selected
        · simp only [TaskList.receive, list]
          rw [text] at selected
          split
          · rename_i clicked
            rw [if_pos clicked] at selected
            cases selected
          · rename_i clicked
            rw [if_neg clicked] at selected
            rw [← selected]
            exact iff_of_false (not_settled_array rows) not_settled_undefined
    · refine Or.inl ⟨⟨_, last, flat⟩, ?_⟩
      rw [tasks]
      exact stray_of_not_flat expected tidy.array flat

theorem Reached.sound (reached : Reached currentTask s) : Sound currentTask s := by
  induction reached with
  | start => exact start_sound currentTask
  | loadUsers _ data ih =>
    exact ih.frame rfl rfl (loadUsers_frame data _).1 (loadUsers_frame data _).2
  | click _ m concerns ih => exact ih.click concerns
  | receive _ _ expected ih => exact ih.receive _ expected
  | reject _ i ih => exact ih.frame rfl rfl rfl rfl

theorem Strayed.not_consistent (strayed : s.Strayed) : ¬ s.Consistent := by
  intro consistent
  obtain ⟨v, vs, tasks, mem, bad⟩ := strayed.tasks
  have listed : v ∈ s.feed.tasks.items := by rwa [tasks]
  rw [(consistent.rows v listed).1] at bad
  cases bad

/-- A flat answer shows tasks only. -/
theorem Flat.shown_isTask {e : Heard} (flat : Flat true e) {v : JsVal} (mem : v ∈ shown e) :
    v.isTask = true := by
  obtain ⟨⟨call, route, body⟩, data⟩ := e
  cases call with
  | startUp | showPersonal | showHistory | addedTask | completedTask => cases mem
  | _ => exact flat rfl v mem

end Runs

/-- In every state of the page the list holds tasks that were returned for the current status,
and a task or nothing is selected, exactly when no answer since the last call of
`showEveryone` puts lists of tasks into the list of tasks, what it shows was returned for the
current status, and nothing but a task was kept by the browser. -/
theorem task_list_iff {currentTask : JsVal} {s : TaskList} (reached : Reached currentTask s) :
    s.Consistent ↔
      (∀ e ∈ s.recent, Flat s.clicked e ∧ (s.clicked = true → ∀ v ∈ shown e, s.Returned v)) ∧
      (s.clicked = true ∨ Settled currentTask) := by
  rcases reached.sound with strayed | tidy
  · refine iff_of_false strayed.not_consistent ?_
    rintro ⟨flat, -⟩
    obtain ⟨e, mem, raised⟩ := strayed.answer
    exact raised (flat e mem).1
  · constructor
    · intro consistent
      refine ⟨fun e mem => ⟨tidy.flat e mem, fun clicked v shows => ?_⟩, ?_⟩
      · refine (consistent.rows v ?_).2
        rw [tidy.tasks, if_pos clicked]
        exact List.mem_flatMap.mpr ⟨e, mem, shows⟩
      · by_cases clicked : s.clicked = true
        · exact Or.inl clicked
        · have selected := tidy.selected
          rw [if_neg clicked] at selected
          exact Or.inr (selected.mp consistent.selected)
    · rintro ⟨fits, kept⟩
      have selected := tidy.selected
      by_cases clicked : s.clicked = true
      · rw [if_pos clicked] at selected
        refine ⟨fun v mem => ?_, Or.inl (by rw [selected]; rfl)⟩
        rw [tidy.tasks, if_pos clicked] at mem
        obtain ⟨e, recent, shows⟩ := List.mem_flatMap.mp mem
        have flat := (fits e recent).1
        rw [clicked] at flat
        exact ⟨flat.shown_isTask shows, (fits e recent).2 clicked v shows⟩
      · rw [if_neg clicked] at selected
        refine ⟨fun v mem => ?_, selected.mpr (kept.resolve_left clicked)⟩
        rw [tidy.tasks, if_neg clicked] at mem
        cases mem

/-- A task as it comes in an answer. -/
def chore (id : String) : JsVal := .obj [("task_id", .str id), ("task_name", .str "dishes")]

/-- Ann opens her page, and one answer comes for her and one for the house. -/
def opened (hers : List JsVal) : TaskList :=
  ((start .null).receive 0 ((Feed.start .null).getTasks .startUp [.num 0])
    (.arr [.arr hers])).receive 0 ((Feed.start .null).getTasks .initialTasks []) (.arr [])

theorem opened_reached {hers : List JsVal} (tasks : ∀ v ∈ hers, v.isTask = true) :
    Reached .null (opened hers) := by
  refine Reached.receive (.receive .start rfl ?_) rfl ?_
  · exact ⟨[hers], rfl, rfl, by simpa using tasks⟩
  · exact ⟨0, [], rfl, rfl, fun _ mem => nomatch mem⟩

/-- Ann has no task and asks for everyone's: there is one of Ben. -/
def everyonesShown : TaskList :=
  (((opened []).click .showEveryone).receive 0 ((opened []).feed.getTasks .showEveryone [])
    (.arr [.arr [chore "a"]])).reject 0

theorem everyonesShown_reached : Reached .null everyonesShown := by
  refine ((Reached.click (opened_reached (by decide)) .showEveryone rfl).receive rfl ?_).reject 0
  exact ⟨1, [[chore "a"]], rfl, rfl, by decide⟩

theorem task_list_sample : everyonesShown.waiting = [] ∧
    everyonesShown.feed.tasks.items.length = 1 ∧ everyonesShown.Consistent := by
  refine ⟨rfl, rfl, (task_list_iff everyonesShown_reached).mpr ⟨?_, Or.inl rfl⟩⟩
  intro e recent
  cases List.mem_singleton.mp recent
  have shows : shown ⟨(opened []).feed.getTasks .showEveryone [], .arr [.arr [chore "a"]]⟩ =
      [chore "a"] := by
    simp only [shown, getTasks]
    exact if_pos (by decide +kernel)
  refine ⟨fun _ v mem => ?_, fun _ v mem => ?_⟩
  · rw [shows] at mem
    cases List.mem_singleton.mp mem
    rfl
  · rw [shows] at mem
    exact ⟨_, List.mem_append_right _ (List.mem_singleton_self _), rfl, rfl, mem⟩

/-- Ann has one task, and the list of her tasks is taken for a task. -/
theorem own_tasks_nested : ∃ s, Reached .null s ∧ s.waiting = [] ∧ ¬ s.Consistent := by
  refine ⟨opened [chore "a"], opened_reached (by decide), rfl, fun consistent => ?_⟩
  have listed : JsVal.arr [chore "a"] ∈ (opened [chore "a"]).feed.tasks.items :=
    List.mem_singleton_self _
  exact absurd (consistent.rows _ listed).1 (by decide)

end TaskList

end OneRoof
