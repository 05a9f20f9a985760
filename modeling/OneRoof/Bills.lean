import OneRoof.Confinement
import OneRoof.Details

/-!
# What a bill amounts to

The amount of a bill is a free text. `updateBillTable` stores what `parseInt` reads at its
front, cut to what the column holds. A text that is not a whole number in decimal notation
either makes no number at all, and then nothing is stored, or makes another one.
-/

namespace OneRoof

open Sql Async Async.Prog Prog

variable {P : Platform}

/-- The integer that a text denotes in decimal notation, but for white space around it. -/
def decimalAmount (s : String) : Option Int :=
  let signed := Decimal.sign (JsVal.trimmed s)
  if signed.2 ≠ [] ∧ signed.2.all Char.isDigit = true then
    some (signed.1 * Decimal.natOf signed.2)
  else none

section Parse

variable {s : String} {sgn : Int} {ds tail : List Char}

theorem digitOf_ten (c : Char) :
    JsVal.digitOf 10 c = if c.isDigit = true then some (c.toNat - 48) else none := by
  simp only [JsVal.digitOf]
  by_cases digit : c.isDigit = true
  · have small : c.toNat - 48 < 10 := by
      simp only [Char.isDigit, Bool.and_eq_true, decide_eq_true_eq, ge_iff_le] at digit
      have : c.toNat ≤ 57 := digit.2
      omega
    simp [digit, small]
  · have lower : 'a' ≤ c → 10 ≤ c.toNat - 87 := fun (h : 97 ≤ c.toNat) => by omega
    have upper : 'A' ≤ c → 10 ≤ c.toNat - 55 := fun (h : 65 ≤ c.toNat) => by omega
    rw [if_neg digit, if_neg digit]
    split_ifs with low high
    · simpa using lower low.1
    · simpa using upper high.1
    · rfl

/-- The digits stop at the first character that is none. -/
theorem digits_append (all : ∀ c ∈ ds, c.isDigit = true)
    (stop : ∀ c ∈ tail.head?, c.isDigit = false) :
    JsVal.digits 10 (ds ++ tail) = (ds.map fun c => c.toNat - 48, tail) := by
  induction ds with
  | nil =>
    cases tail with
    | nil => rfl
    | cons c tail =>
      have foreign := stop c rfl
      simp [JsVal.digits, digitOf_ten, foreign]
  | cons c ds ih =>
    have digit := all c List.mem_cons_self
    have rest := ih fun c' hc => all c' (List.mem_cons_of_mem c hc)
    simp [JsVal.digits, digitOf_ten, digit, rest]

theorem valueOf_digits (ds : List Char) :
    JsVal.valueOf 10 (ds.map fun c => c.toNat - 48) = Decimal.natOf ds := by
  rw [JsVal.valueOf, List.foldl_map]
  rfl

/-- What stands behind the digits is not looked at. -/
theorem parseText_front
    (signed : Decimal.sign (s.toList.dropWhile JsVal.isSpace) = (sgn, ds ++ tail))
    (given : ds ≠ []) (all : ∀ c ∈ ds, c.isDigit = true)
    (stop : ∀ c ∈ tail.head?, c.isDigit = false)
    (plain : ∀ c ∈ tail.head?, ds = ['0'] → c ≠ 'x' ∧ c ≠ 'X') :
    JsVal.parseText s = JsVal.finite (sgn * Decimal.natOf ds) := by
  have whole := digits_append all stop
  have radix : ∀ x cs, ds ++ tail = '0' :: x :: cs → x ≠ 'x' ∧ x ≠ 'X' := by
    intro x cs h
    match ds, given with
    | [c], _ =>
      obtain ⟨rfl, rfl⟩ := List.cons.inj h
      exact plain x rfl rfl
    | c :: c' :: ds, _ =>
      have digit : c'.isDigit = true := all c' (by simp)
      obtain ⟨-, h⟩ := List.cons.inj h
      obtain ⟨rfl, -⟩ := List.cons.inj h
      constructor <;> rintro rfl <;> exact absurd digit (by decide)
  unfold JsVal.parseText
  simp only [signed]
  split
  · rename_i cs h
    exact absurd rfl (radix 'x' cs h).1
  · rename_i cs h
    exact absurd rfl (radix 'X' cs h).2
  · simp [whole, given, valueOf_digits]

theorem isDigit_of_isSpace {c : Char} (space : JsVal.isSpace c = true) : c.isDigit = false := by
  simp only [JsVal.isSpace, decide_eq_true_eq, List.mem_cons, List.not_mem_nil, or_false] at space
  rw [← Bool.not_eq_true]
  intro digit
  simp only [Char.isDigit, Bool.and_eq_true, decide_eq_true_eq, ge_iff_le] at digit
  have low : 48 ≤ c.toNat := digit.1
  have high : c.toNat ≤ 57 := digit.2
  omega

/-- What is trimmed off at the end is white space. -/
theorem dropWhile_eq_trimmed (s : String) : ∃ spaces, (∀ c ∈ spaces, JsVal.isSpace c = true) ∧
    s.toList.dropWhile JsVal.isSpace = JsVal.trimmed s ++ spaces := by
  refine ⟨((s.toList.dropWhile JsVal.isSpace).reverse.takeWhile JsVal.isSpace).reverse, ?_, ?_⟩
  · intro c hc
    exact List.all_eq_true.mp List.all_takeWhile c (List.mem_reverse.mp hc)
  · rw [JsVal.trimmed, ← List.reverse_append, List.takeWhile_append_dropWhile, List.reverse_reverse]

theorem sign_append {l : List Char} (given : l ≠ []) (more : List Char) :
    Decimal.sign (l ++ more) = ((Decimal.sign l).1, (Decimal.sign l).2 ++ more) := by
  cases l with
  | nil => exact absurd rfl given
  | cons c l =>
    by_cases minus : c = '-'
    · rw [minus]
      rfl
    · by_cases plus : c = '+'
      · rw [plus]
        rfl
      · simp [Decimal.sign, minus, plus]

/-- A text in decimal notation is read as the number it denotes. -/
theorem parseText_decimal {n : Int} (decimal : decimalAmount s = some n) :
    JsVal.parseText s = JsVal.finite n := by
  obtain ⟨spaces, blank, front⟩ := dropWhile_eq_trimmed s
  simp only [decimalAmount] at decimal
  split at decimal
  · rename_i digits
    cases decimal
    have given : JsVal.trimmed s ≠ [] := by
      intro none
      rw [none] at digits
      exact digits.1 rfl
    have first : ∀ c ∈ spaces.head?, JsVal.isSpace c = true := fun c hc =>
      blank c (List.mem_of_mem_head? hc)
    refine parseText_front (by rw [front, sign_append given]) digits.1
      (fun c hc => List.all_eq_true.mp digits.2 c hc) (fun c hc => ?_) fun c hc _ => ?_
    · exact isDigit_of_isSpace (first c hc)
    · constructor <;> rintro rfl <;> exact absurd (first _ hc) (by decide)
  · cases decimal

end Parse

/-- The amounts that stand under the id of a task. -/
def Tables.billAmounts (t : Tables) (taskID : String) : List Value :=
  (t.bill.filter fun r => r .task_id = .text (cut 100 taskID)).map (· .bill_amount)

/-- A request for a bill over the amount `s`. -/
structure Ctx.Bills (c : Ctx) (s : String) : Prop where
  route : c.req.route = .addTask
  type : c.req.body.get "taskType" = .str "Bill"
  amount : c.req.body.get "amount" = .str s

/-- Where a bill over the amount `s` was inserted, the integer that `s` denotes is stored; where
`s` denotes none, every bill comes from another request. -/
structure AmountKept (s : String) (w : World P) : Prop where
  stored : ∀ c taskID amount packet,
    .completed c (.updateBillTable taskID amount) packet ∈ w.log → c.Bills s →
    ∃ n, decimalAmount s = some n ∧ w.db.tables.billAmounts taskID = [.int n]
  refused : decimalAmount s = none → ∀ row ∈ w.db.tables.bill, ∃ c taskID amount packet,
    .completed c (.updateBillTable taskID amount) packet ∈ w.log ∧
    row .task_id = .text (cut 100 taskID) ∧ ¬ c.Bills s

section Exec

variable {collate : String → String} {db db' : Database collate}

theorem bill_exec {s : Stmt} {r : s.Reply}
    (other : ∀ taskID amount, s ≠ .updateBillTable taskID amount)
    (he : exec collate s db = some (r, db')) : db'.tables.bill = db.tables.bill := by
  have effect := exec_effect he
  generalize db'.tables = t at effect ⊢
  generalize db'.next = n at effect
  cases effect with
  | @updateBillTable taskID amount row => exact absurd rfl (other taskID amount)
  | _ => rfl

theorem billAmounts_append {t t' : Tables} {row : Row BillCol}
    (inserted : t'.bill = t.bill ++ [row]) (taskID : String) :
    t'.billAmounts taskID = t.billAmounts taskID ++
      if row .task_id = .text (cut 100 taskID) then [row .bill_amount] else [] := by
  by_cases named : row .task_id = .text (cut 100 taskID)
  · simp [Tables.billAmounts, inserted, List.filter_append, named]
  · simp [Tables.billAmounts, inserted, List.filter_append, named]

/-- Under the id of a bill that is added no other stands. -/
theorem billAmounts_apart {row : Row BillCol} (inserted : db'.tables.bill = db.tables.bill ++ [row])
    {taskID : String} (named : row .task_id = .text (cut 100 taskID)) :
    db.tables.billAmounts taskID = [] := by
  have keyed := db'.sound.bill_key
  rw [inserted] at keyed
  rw [Tables.billAmounts, List.map_eq_nil_iff, List.filter_eq_nil_iff]
  intro old mem same
  have unequal := (List.pairwise_append.mp keyed).2.2 old mem row List.mem_cons_self
  rw [of_decide_eq_true same, named] at unequal
  simp at unequal

/-- A bill that is added stands alone under its id, and the others stand as they did. -/
theorem exec_billAmounts {taskID : String} {amount : Option Int} {r : Packet}
    (he : exec collate (.updateBillTable taskID amount) db = some (r, db')) :
    ∃ n, amount = some n ∧ db'.tables.billAmounts taskID = [.int (clip n)] ∧
      (∀ other v, db.tables.billAmounts other = [v] → db'.tables.billAmounts other = [v]) ∧
      ∀ row ∈ db'.tables.bill, row ∈ db.tables.bill ∨ row .task_id = .text (cut 100 taskID) := by
  obtain ⟨n, row, number, filled, inserted⟩ := exec_updateBillTable he
  have id : row .task_id = .text (cut 100 taskID) :=
    newRow_cell filled (by simp) List.mem_cons_self rfl
  have stored : row .bill_amount = .int (clip n) :=
    newRow_cell filled (c := .bill_amount) (v := .num n) (by simp) (by simp) rfl
  refine ⟨n, number, ?_, fun other v only => ?_, fun new mem => ?_⟩
  · rw [billAmounts_append inserted, billAmounts_apart inserted id, if_pos id, stored]
    rfl
  · have unlike : row .task_id ≠ .text (cut 100 other) := by
      intro same
      rw [billAmounts_apart inserted same] at only
      cases only
    rw [billAmounts_append inserted, if_neg unlike, List.append_nil, only]
  · rw [inserted] at mem
    rcases List.mem_append.mp mem with old | new
    · exact Or.inl old
    · rw [List.mem_singleton.mp new]
      exact Or.inr id

end Exec

/-- What is known of the amount in a statement that adds a bill. -/
def AsksBill (c : Ctx) (s : Stmt) : Prop :=
  ∀ taskID amount, s = .updateBillTable taskID amount →
    (c.req.body.get "amount").parseInt = some amount

/-- Every bill that was inserted is there, with the amount its request was read to ask for. -/
structure Billed (w : World P) : Prop where
  stored : ∀ c taskID amount packet,
    .completed c (.updateBillTable taskID amount) packet ∈ w.log →
    (c.req.body.get "amount").parseInt = some amount ∧
    ∃ n, amount = some n ∧ w.db.tables.billAmounts taskID = [.int (clip n)]
  origin : ∀ row ∈ w.db.tables.bill, ∃ c taskID amount packet,
    .completed c (.updateBillTable taskID amount) packet ∈ w.log ∧
    row .task_id = .text (cut 100 taskID)

section Runs

theorem Billed.same {w w' : World P} (billed : Billed w) (hdb : w'.db = w.db)
    (hlog : ∀ c s r, .completed c s r ∈ w'.log ↔ .completed c s r ∈ w.log) : Billed w' := by
  refine ⟨fun c taskID amount packet mem => ?_, fun row hr => ?_⟩
  · rw [hdb]
    exact billed.stored c taskID amount packet ((hlog _ _ _).mp mem)
  · rw [hdb] at hr
    obtain ⟨c, taskID, amount, packet, mem, id⟩ := billed.origin row hr
    exact ⟨c, taskID, amount, packet, (hlog _ _ _).mpr mem, id⟩

theorem Billed.complete {w : World P} (billed : Billed w) {c : Ctx} {s : Stmt} {r : s.Reply}
    {db : Database P.collate} (asks : AsksBill c s) (he : exec P.collate s w.db = some (r, db)) :
    Billed (w.complete c s r db) := by
  by_cases adds : ∃ taskID amount, s = .updateBillTable taskID amount
  · obtain ⟨taskID, amount, rfl⟩ := adds
    obtain ⟨n, number, added, others, rows⟩ := exec_billAmounts he
    refine ⟨fun c' taskID' amount' packet' mem => ?_, fun row hr => ?_⟩
    · rcases List.mem_append.mp mem with old | new
      · obtain ⟨asked, m, given, stored⟩ := billed.stored c' taskID' amount' packet' old
        exact ⟨asked, m, given, others taskID' _ stored⟩
      · cases List.mem_singleton.mp new
        exact ⟨asks taskID amount rfl, n, number, added⟩
    · rcases rows row hr with old | new
      · obtain ⟨c', taskID', amount', packet', mem, id⟩ := billed.origin row old
        exact ⟨c', taskID', amount', packet', List.mem_append_left _ mem, id⟩
      · exact ⟨c, taskID, amount, r, List.mem_append_right _ List.mem_cons_self, new⟩
  · have same := bill_exec (fun taskID amount h => adds ⟨taskID, amount, h⟩) he
    refine ⟨fun c' taskID amount packet mem => ?_, fun row hr => ?_⟩
    · rcases List.mem_append.mp mem with old | new
      · rw [Tables.billAmounts, World.complete, same]
        exact billed.stored c' taskID amount packet old
      · cases List.mem_singleton.mp new
        exact absurd ⟨taskID, amount, rfl⟩ adds
    · rw [World.complete, same] at hr
      obtain ⟨c', taskID, amount, packet, mem, id⟩ := billed.origin row hr
      exact ⟨c', taskID, amount, packet, List.mem_append_left _ mem, id⟩

/-- Bills are added by the statements of requests that ask for them. -/
def billing (P : Platform) : Discipline (server P) where
  Good := Billed
  Le _ _ := True
  Allowed c s _ := AsksBill c s
  Permit _ _ _ := True
  refl _ := trivial
  trans _ _ := trivial
  mono _ h := h
  exec_good := by
    intro c s w r w' good asks he
    obtain ⟨⟨r', db⟩, hx, hw⟩ := Option.map_eq_some_iff.mp he
    cases hw
    exact ⟨good.complete asks hx, trivial⟩
  refuse_good good := ⟨good.same rfl fun c' s' r => by simp [server], trivial⟩
  perform_good {c a w} good _ :=
    ⟨good.same (perform_db c a w) fun _ _ _ => perform_completed, trivial⟩

theorem addTask_asksBill (c : Ctx) : (addTask c.req c.user).Issues (AsksBill c) := by
  have others : ∀ s, (∀ taskID amount, s ≠ .updateBillTable taskID amount) → AsksBill c s :=
    fun s other taskID amount h => absurd h (other taskID amount)
  refine query_issues (others _ nofun) <| thenCatch_issues (fun _ => ?_) (send_issues _ _)
  refine Issues.andThen (attempt_issues fun owners _ => ?_) (attempt_issues fun chore _ => ?_)
  · refine startEach_issues (fun o s hs => ?_) done_issues _
    obtain ⟨owner, -, hs⟩ := Option.bind_eq_some_iff.mp hs
    obtain ⟨u, -, hs⟩ := Option.bind_eq_some_iff.mp hs
    cases hs
    exact others _ nofun
  · split
    · exact ⟨others _ nofun, thenCatch_issues (fun _ => send_issues _ _) trivial, send_issues _ _⟩
    · refine attempt_issues fun amount parsed => start_issues ?_ (send_issues _ _)
      intro taskID amount' same
      rw [← (Stmt.updateBillTable.inj same).2]
      exact parsed

/-- Bills are added by `addTask` alone, over the amount it was given. -/
theorem handler_asksBill (P : Platform) (c : Ctx) : (handler P c).Issues (AsksBill c) := by
  by_cases route : c.req.route = .addTask
  · rw [handler, OneRoof.route, route]
    exact (addTask_asksBill c).recover (send_issues _ _)
  · refine (handler_issues P c).mono fun s sends taskID amount h => ?_
    cases sends with
    | select reads => simp [h, Stmt.isSelect] at reads
    | updateBillTable added => exact absurd added route
    | _ => cases h

theorem Reachable.billed {σ : Config P} (reachable : Reachable P σ) : Billed σ.world := by
  obtain ⟨ls, own, rfl⟩ := reachable
  have start : Billed (startUp P).world :=
    ⟨fun _ _ _ _ h => absurd h List.not_mem_nil, fun _ h => absurd h List.not_mem_nil⟩
  refine (Discipline.run_holds (𝒟 := billing P) ls (fun l hl => ?_) _
    (Discipline.idle_holds start)).1.1
  cases l with
  | settle i lost => trivial
  | disturb db => exact absurd (own _ hl) id
  | arrive q =>
    intro w good
    exact ⟨good.same rfl fun _ _ _ => Iff.rfl, trivial,
      issues_safe (handler_asksBill P _) (fun _ _ asks => asks) (fun _ _ => trivial) _⟩

end Runs

/-- A bill over the amount `s` that nobody is to pay. -/
def billFor (s : String) : Request where
  sid := 0
  route := .addTask
  body := .obj [("taskOwner", .arr []), ("taskName", .str "rent"), ("taskType", .str "Bill"),
    ("taskDueDate", .str "today"), ("amount", .str s)]

section Insert

variable {s : String} {n : Int}

theorem newTask_billFor (s : String) : newTask (billFor s) = {
    taskID := guid zeroDraws, taskName := .str "rent", taskTime := "", taskType := .str "Bill",
    taskStatus := "incomplete", taskDueDate := .str "today", taskDescription := .undefined } := by
  have name : (billFor s).body.get "taskName" = .str "rent" := by simp [billFor, JsVal.get]
  have type : (billFor s).body.get "taskType" = .str "Bill" := by simp [billFor, JsVal.get]
  have due : (billFor s).body.get "taskDueDate" = .str "today" := by simp [billFor, JsVal.get]
  have descr : (billFor s).body.get "taskDescription" = .undefined := by simp [billFor, JsVal.get]
  rw [newTask, name, type, due, descr]
  rfl

theorem billFor_row (P : Platform) (s : String) :
    ∃ row, taskRow P.collate (newTask (billFor s)) = some row := by
  rw [newTask_billFor]
  apply newRow_some
  · simp [JsVal.isScalar]
  · simp [JsVal.lit]
    decide

theorem billRow_some (collate : String → String) (taskID : String) (n : Int) :
    ∃ row, billRow collate taskID n = some row := by
  apply newRow_some
  · simp [JsVal.isScalar]
  · simp [JsVal.lit, JsVal.quoted]

theorem billFor_owners (s : String) (user : Option SessionUser) (taskID : String) :
    addTaskOwners (billFor s) user taskID = .done := by
  have owners : (billFor s).body.get "taskOwner" = .arr [] := by simp [billFor, JsVal.get]
  rw [addTaskOwners, owners]
  rfl

theorem billFor_detail (parsed : JsVal.parseText s = some n) (user : Option SessionUser)
    (taskID : String) : addTaskDetail (billFor s) user taskID =
      start (.updateBillTable taskID (some n)) (send (.json .undefined) user) := by
  have type : (billFor s).body.get "taskType" = .str "Bill" := by simp [billFor, JsVal.get]
  have amount : (billFor s).body.get "amount" = .str s := by simp [billFor, JsVal.get]
  have number : (JsVal.str s).parseInt = some (some n) := congrArg some parsed
  have chore : (JsVal.str "Bill").looseEq (.str "Chore") = some false := by decide
  rw [addTaskDetail, type, chore, amount, number]
  rfl

/-- The bill is asked for when the task is there. -/
theorem billFor_handler (P : Platform) (parsed : JsVal.parseText s = some n) (c : Ctx)
    (asked : c.req = billFor s) :
    ∃ k, handler P c = .issue (.createTask (newTask (billFor s))) k .done ∧ ∀ r, ∃ rest,
      k (some r) =
        .issue (.updateBillTable (newTask (billFor s)).taskID (some n)) (fun _ => .done) rest := by
  have added : handler P c = (addTask (billFor s) c.user).recover
      (send (.status 500 "Internal Server Error") c.user) := by
    rw [handler, OneRoof.route, asked]
    rfl
  refine ⟨_, added, fun r => ?_⟩
  have body := billFor_detail parsed c.user (guid zeroDraws)
  have owners := billFor_owners s c.user (guid zeroDraws)
  have next : (addTaskOwners (billFor s) c.user (guid zeroDraws)).andThen
      (addTaskDetail (billFor s) c.user (guid zeroDraws)) =
      start (.updateBillTable (guid zeroDraws) (some n)) (send (.json .undefined) c.user) := by
    rw [owners, body]
    rfl
  exact ⟨_, congrArg (fun p => p.recover (send (.status 404 "Something's fucky") c.user)) next⟩

/-- A task without further columns takes a bill. -/
theorem bill_onTask (P : Platform) {task : NewTask} {row : Row TaskCol} {bill : Row BillCol}
    (filled : taskRow P.collate task = some row)
    (billed : billRow P.collate task.taskID n = some bill) :
    ∃ r db packet db', exec P.collate (.createTask task) (emptyDatabase P.collate) = some (r, db) ∧
      exec P.collate (.updateBillTable task.taskID (some n)) db = some (packet, db') := by
  have typed := newRow_fits (fun c => by cases c <;> decide) filled
  have typedBill := newRow_fits (fun c => by cases c <;> decide) billed
  have taskId : row .task_id = .text (cut 100 task.taskID) :=
    newRow_cell filled (by simp) List.mem_cons_self rfl
  have billId : bill .task_id = .text (cut 100 task.taskID) :=
    newRow_cell billed (by simp) List.mem_cons_self rfl
  have sound : Integrity P.collate { noTables with task := [row], bill := [bill] } := by
    rw [integrity_iff]
    simp [noTables, typed_singleton typed, typed_singleton typedBill, Refers, taskId, billId]
  refine ⟨⟨1, 0⟩, oneTask row typed, ⟨1, 0⟩, ⟨_, ⟨1, 1, 1, 1, 1, 1, 1⟩, sound⟩, ?_, ?_⟩
  · refine Option.bind_eq_some_iff.mpr ⟨row, filled, ?_⟩
    exact Option.bind_eq_some_iff.mpr ⟨_, commit_of_sound _ (task_sound typed), rfl⟩
  · have commits : commit P.collate { (oneTask (P := P) row typed).tables with
        bill := (oneTask (P := P) row typed).tables.bill ++ [bill] }
        (oneTask (P := P) row typed).next = some ⟨_, _, sound⟩ := commit_of_sound _ sound
    rw [billRow] at billed
    simp only [exec, Option.bind_eq_bind, Option.bind_some, billed, commits]
    rfl

/-- A request that is served from start-up, and then a statement of its callback. -/
theorem completes_second {q : Request} {s s' : Stmt} {k : Option s.Reply → Prog} {rest : Prog}
    {r : s.Reply} {r' : s'.Reply} {db db' : Database P.collate}
    (single : handler P ((startUp P).world.context q) = .issue s k .done)
    (next : k (some r) = .issue s' (fun _ => .done) rest)
    (first : exec P.collate s (emptyDatabase P.collate) = some (r, db))
    (second : exec P.collate s' db = some (r', db')) :
    ∃ σ, Reachable P σ ∧ .completed ((startUp P).world.context q) s' r' ∈ σ.world.log := by
  have served := serve_single (σ := startUp P) single first
  rw [next] at served
  have last : run (server P) [.arrive q, .settle 0 false, .settle 0 false] (startUp P) =
      settle (server P) 0 false (run (server P) [.arrive q, .settle 0 false] (startUp P)) := rfl
  have reached : Reachable P (run (server P) [.arrive q, .settle 0 false, .settle 0 false]
      (startUp P)) := ⟨_, by simp [Label.own], rfl⟩
  refine ⟨_, reached, ?_⟩
  obtain ⟨w, ps, settled⟩ := settle_first ((startUp P).world.context q) (fun _ => .done) rest
    (w := (startUp P).world.next.complete ((startUp P).world.context q) s r db) second
  have settled' : run (server P) [.arrive q, .settle 0 false, .settle 0 false] (startUp P) = _ :=
    last.trans ((congrArg (settle (server P) 0 false) served).trans settled)
  rw [settled']
  exact List.mem_append_right _ List.mem_cons_self

/-- A run that hangs the bill on a new task. -/
theorem billFor_stored (P : Platform) (parsed : JsVal.parseText s = some n) :
    ∃ σ c taskID packet, Reachable P σ ∧ Ctx.Bills c s ∧
      .completed c (.updateBillTable taskID (some n)) packet ∈ σ.world.log := by
  obtain ⟨k, single, next⟩ := billFor_handler P parsed ((startUp P).world.context (billFor s)) rfl
  obtain ⟨row, filled⟩ := billFor_row P s
  obtain ⟨bill, billed⟩ := billRow_some P.collate (newTask (billFor s)).taskID n
  obtain ⟨r, db, packet, db', creates, adds⟩ := bill_onTask P filled billed
  obtain ⟨rest, issues⟩ := next r
  obtain ⟨σ, reached, completed⟩ := completes_second single issues creates adds
  refine ⟨σ, _, _, packet, reached, ⟨rfl, ?_, ?_⟩, completed⟩
  · simp [World.context, billFor, JsVal.get]
  · simp [World.context, billFor, JsVal.get]

end Insert

section Amounts

variable {s : String} {m n : Int}

theorem finite_some (read : JsVal.finite m = some n) : m = n := by
  simp only [JsVal.finite] at read
  split at read
  · exact Option.some.inj read
  · cases read

/-- The number in a statement that a request for a bill over `s` completed. -/
theorem Billed.read {w : World P} (billed : Billed w) {c : Ctx} (bills : c.Bills s)
    {taskID : String} {amount : Option Int} {packet : Packet}
    (completed : .completed c (.updateBillTable taskID amount) packet ∈ w.log) :
    ∃ n, JsVal.parseText s = some n ∧ w.db.tables.billAmounts taskID = [.int (clip n)] := by
  obtain ⟨asked, n, number, stored⟩ := billed.stored c taskID amount packet completed
  rw [bills.amount, number] at asked
  exact ⟨n, Option.some.inj asked, stored⟩

/-- The condition is needed: a run stores the bill. -/
theorem decimal_of_kept (kept : ∀ σ, Reachable P σ → AmountKept s σ.world)
    (parsed : JsVal.parseText s = some n) :
    ∃ m, decimalAmount s = some m ∧ -2147483648 ≤ m ∧ m ≤ 2147483647 := by
  obtain ⟨σ, c, taskID, packet, reached, bills, completed⟩ := billFor_stored P parsed
  obtain ⟨m, decimal, here⟩ := (kept σ reached).stored c taskID (some n) packet completed bills
  obtain ⟨n', parsed', stored⟩ := (Reachable.billed reached).read bills completed
  have same : n' = n := Option.some.inj (parsed'.symm.trans parsed)
  have number : m = n := finite_some ((parseText_decimal decimal).symm.trans parsed)
  have clipped : clip n = n := by
    rw [stored, same, number] at here
    simpa using here
  simp only [clip] at clipped
  exact ⟨m, decimal, by omega, by omega⟩

/-- The condition is enough in every reachable state. -/
theorem Billed.amountKept {w : World P} (billed : Billed w)
    (condition : JsVal.parseText s = none ∨
      ∃ n, decimalAmount s = some n ∧ -2147483648 ≤ n ∧ n ≤ 2147483647) : AmountKept s w := by
  constructor
  · intro c taskID amount packet completed bills
    obtain ⟨n, parsed, stored⟩ := billed.read bills completed
    rcases condition with none | ⟨m, decimal, range⟩
    · rw [none] at parsed
      cases parsed
    · have number : m = n := finite_some ((parseText_decimal decimal).symm.trans parsed)
      refine ⟨m, decimal, ?_⟩
      rw [stored, ← number, clip_of_range range]
  · intro undenoted row mem
    obtain ⟨c, taskID, amount, packet, completed, id⟩ := billed.origin row mem
    refine ⟨c, taskID, amount, packet, completed, id, fun bills => ?_⟩
    obtain ⟨n, parsed, -⟩ := billed.read bills completed
    rcases condition with none | ⟨m, decimal, -⟩
    · rw [none] at parsed
      cases parsed
    · rw [undenoted] at decimal
      cases decimal

/-- In every reachable state the bills over `s` are kept as they were entered, exactly when `s`
makes no number at all or denotes an integer the column holds. -/
theorem bill_amounts_kept_iff (P : Platform) (s : String) :
    (∀ σ, Reachable P σ → AmountKept s σ.world) ↔
      (JsVal.parseText s = none ∨
        ∃ n, decimalAmount s = some n ∧ -2147483648 ≤ n ∧ n ≤ 2147483647) := by
  constructor
  · intro kept
    cases parsed : JsVal.parseText s with
    | none => exact Or.inl rfl
    | some n => exact Or.inr (decimal_of_kept kept parsed)
  · exact fun condition σ reached => (Reachable.billed reached).amountKept condition

/-- The cents of an amount are dropped. -/
theorem bill_drops_cents : ∃ σ c taskID packet, Reachable samplePlatform σ ∧
    Ctx.Bills c "12.50" ∧
    .completed c (.updateBillTable taskID (some 12)) packet ∈ σ.world.log ∧
    σ.world.db.tables.billAmounts taskID = [.int 12] ∧
    decimalAmount "12.50" = none ∧ ¬ AmountKept "12.50" σ.world := by
  have parsed : JsVal.parseText "12.50" = some 12 := by decide +kernel
  have undenoted : decimalAmount "12.50" = none := by decide +kernel
  obtain ⟨σ, c, taskID, packet, reached, bills, completed⟩ := billFor_stored samplePlatform parsed
  obtain ⟨n, read, stored⟩ := (Reachable.billed reached).read bills completed
  have number : n = 12 := Option.some.inj (read.symm.trans parsed)
  refine ⟨σ, c, taskID, packet, reached, bills, completed, ?_, undenoted, fun kept => ?_⟩
  · rw [stored, number]
    rfl
  · obtain ⟨m, decimal, -⟩ := kept.stored c taskID _ packet completed bills
    rw [undenoted] at decimal
    cases decimal

example : JsVal.parseText "1,000" = some 1 ∧ decimalAmount "1,000" = none := by decide +kernel
example : JsVal.parseText "0x10" = some 16 ∧ decimalAmount "0x10" = none := by decide +kernel
example : JsVal.parseText "1e3" = some 1 ∧ JsVal.parseText "$5" = none := by decide +kernel

end Amounts

end OneRoof
