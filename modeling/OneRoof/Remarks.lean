import OneRoof.Housing

/-!
# The remarks on the tasks

What `tblCOMMENT` is for is a list of remarks: who made them under which task, in the order
they came. A completed `addComment` makes one and a completed `deleteComment` strikes the one
with its number. Whoever asks for the comments of a task gets the remarks under it that have
been made by then and not struck, and nothing else.
-/

namespace OneRoof

open Sql Async Async.Prog Prog

variable {P : Platform}

/-- A property that is assigned leaves the others. -/
theorem JsVal.get_set_other (v w : JsVal) {key other : String} (apart : other ≠ key) :
    (v.set key w).get other = v.get other := by
  cases v with
  | obj fields =>
    have head : ¬ key = other := Ne.symm apart
    simp only [JsVal.set, JsVal.get, List.find?_cons, head, decide_false, List.find?_filter]
    congr 3
    funext f
    by_cases named : f.1 = other <;> simp [named, apart]
  | _ => simp [JsVal.set, JsVal.get, Ne.symm apart]

/-- A remark as it is stored. -/
structure Remark where
  number : Nat
  author : Int
  task : Value
  descr : Value
  time : Int

/-- The row that shows a remark. -/
def Remark.row (e : Remark) : Row CommentCol
  | .comment_id => .int e.number
  | .comment_descr => e.descr
  | .comment_time => .int e.time
  | .comment_owner_id => .int e.author
  | .task_id => e.task

/-- The remark that a completed statement makes. -/
def Event.remark : Event → Option Remark
  | .completed _ (.addComment descr (.num n) task stamp) packet =>
    some ⟨packet.insertId, clip n, store CommentCol.task_id task.lit.value,
      store CommentCol.comment_descr descr.lit.value, stamp⟩
  | _ => none

/-- A completed statement strikes the remark with this number. -/
def Event.strikes (collate : String → String) (e : Event) (number : Nat) : Bool :=
  match e with
  | .completed _ (.deleteComment id) _ => eqLit collate (.int number) id.lit = some true
  | _ => false

/-- What a completed statement makes of the remarks. -/
def remarking (P : Platform) (c : Ctx) (s : Stmt) (r : s.Reply) (l : List Remark) : List Remark :=
  (l.filter fun e => !(Event.completed c s r).strikes P.collate e.number) ++
    (Event.completed c s r).remark.toList

/-- The remarks that the statements of a log leave. -/
abbrev remarks (P : Platform) (log : List Event) : List Remark := replay (remarking P) [] log

/-- The table shows the remarks. -/
def ShowsRemarks (db : Database P.collate) (l : List Remark) : Prop :=
  db.tables.comment = l.map Remark.row

/-- What the handler of a plain request may send. -/
structure Remarks (P : Platform) (c : Ctx) (s : Stmt) : Prop where
  plain : c.req.Plain
  sends : Sends P c s

section Rows

variable {c : Ctx} {s : Stmt} {db db' : Database P.collate} {l : List Remark}

theorem handler_remarks (c : Ctx) (plain : c.req.Plain) : (handler P c).Issues (Remarks P c) :=
  (handler_issues P c).mono fun _ sends => ⟨plain, sends⟩

/-- The fields of a plain comment are scalars, and its author is in the session. -/
theorem Remarks.added {descr creator task : JsVal} {stamp : Int}
    (remarks : Remarks P c (.addComment descr creator task stamp)) :
    descr.isScalar = true ∧ task.isScalar = true ∧ ∃ n, creator = .ofInt n := by
  obtain ⟨plain, sends⟩ := remarks
  generalize made : Stmt.addComment descr creator task stamp = s at sends
  cases sends with
  | select reads => subst made; cases reads
  | addComment route user descr task =>
    cases made
    rw [descr, task, JsVal.get_set_other _ _ (by decide), JsVal.get_set_other _ _ (by decide)]
    exact ⟨plain.body "commentDescr" (by decide), plain.body "taskID" (by decide), _, rfl⟩
  | _ => cases made

theorem Remarks.deleted {id : JsVal} (remarks : Remarks P c (.deleteComment id)) :
    id.isScalar = true := by
  obtain ⟨plain, sends⟩ := remarks
  generalize made : Stmt.deleteComment id = s at sends
  cases sends with
  | select reads => subst made; cases reads
  | deleteComment => cases made; exact plain.body "comment_id" (by decide)
  | _ => cases made

/-- A comment that is accepted becomes the row of its remark. -/
theorem addComment_remark {descr creator task : JsVal} {stamp : Int} {r : Packet}
    (remarks : Remarks P c (.addComment descr creator task stamp))
    (he : exec P.collate (.addComment descr creator task stamp) db = some (r, db')) :
    ∃ e, (Event.completed c (.addComment descr creator task stamp) r).remark = some e ∧
      db'.tables.comment = db.tables.comment ++ [e.row] := by
  obtain ⟨descr_scalar, task_scalar, n, rfl⟩ := remarks.added
  obtain ⟨row, filled, he⟩ := Option.bind_eq_some_iff.mp he
  obtain ⟨tables, -, rfl⟩ := bind_commit he
  cases n with
  | none =>
    exact absurd rfl (newRow_given filled (c := .comment_owner_id) (v := .ofInt none) (by simp)
      rfl rfl)
  | some n =>
    refine ⟨_, rfl, ?_⟩
    rw [tables]
    have number : row .comment_id = .int db.next.comment := newRow_key filled (by simp)
    have text : row .comment_descr = store CommentCol.comment_descr descr.lit.value :=
      newRow_cell filled (by simp) (by simp) descr_scalar
    have author : row .comment_owner_id = .int (clip n) :=
      newRow_cell filled (v := .num n) (by simp) (by simp [JsVal.ofInt]) rfl
    have under : row .task_id = store CommentCol.task_id task.lit.value :=
      newRow_cell filled (by simp) (by simp) task_scalar
    refine congrArg (fun row => _ ++ [row]) (funext fun col => ?_)
    cases col with
    | comment_time => rfl
    | comment_id => exact (Function.update_of_ne (by simp) _ _).trans number
    | comment_descr => exact (Function.update_of_ne (by simp) _ _).trans text
    | comment_owner_id => exact (Function.update_of_ne (by simp) _ _).trans author
    | task_id => exact (Function.update_of_ne (by simp) _ _).trans under

/-- Striking a remark deletes its row. -/
theorem deleteComment_struck {id : JsVal} {r : Packet}
    (remarks : Remarks P c (.deleteComment id))
    (he : exec P.collate (.deleteComment id) db = some (r, db')) (shown : ShowsRemarks db l) :
    db'.tables.comment = (l.filter fun e =>
      !(Event.completed c (.deleteComment id) r).strikes P.collate e.number).map Remark.row := by
  obtain ⟨v, given, he⟩ := Option.bind_eq_some_iff.mp he
  obtain ⟨q, parsed, he⟩ := Option.bind_eq_some_iff.mp he
  obtain ⟨tables, -, -⟩ := bind_commit he
  rcases JsVal.bare_scalar remarks.deleted with ⟨none, -⟩ | ⟨same, -⟩
  · rw [none] at given
    cases given
  rw [same] at given
  cases given
  rw [JsVal.escape_scalar remarks.deleted] at parsed
  cases parsed
  rw [tables, delete, shown, List.filter_map]
  rfl

/-- Statements that are not about comments leave their table. -/
theorem comment_same {r : s.Reply} (he : exec P.collate s db = some (r, db'))
    (made : ∀ descr creator task stamp, s ≠ .addComment descr creator task stamp)
    (struck : ∀ id, s ≠ .deleteComment id) : db'.tables.comment = db.tables.comment := by
  have effect := exec_effect he
  generalize db'.tables = t at effect ⊢
  generalize db'.next = n at effect
  cases effect with
  | addComment => exact absurd rfl (made _ _ _ _)
  | deleteComment => exact absurd rfl (struck _)
  | _ => rfl

end Rows

theorem remarks_refine : Refines P Request.Plain (Remarks P) (remarking P) [] ShowsRemarks where
  start := rfl
  issues := handler_remarks
  preserve := by
    intro c s r db db' l allowed he shown
    have kept : l.filter (fun _ => !false) = l := by simp
    cases s with
    | addComment descr creator task stamp =>
      obtain ⟨e, made, grown⟩ := addComment_remark allowed he
      rw [ShowsRemarks, grown, shown, remarking, made, List.map_append]
      exact congrArg (fun l => List.map Remark.row l ++ _) kept.symm
    | deleteComment id =>
      rw [ShowsRemarks, deleteComment_struck allowed he shown, remarking]
      exact congrArg _ (List.append_nil _).symm
    | _ =>
      rw [ShowsRemarks, comment_same he (by simp) (by simp), shown, remarking]
      exact congrArg _ ((List.append_nil _).trans kept).symm

theorem remarks_snoc (log : List Event) (e : Event) : remarks P (log ++ [e]) =
    ((remarks P log).filter fun x => !e.strikes P.collate x.number) ++ e.remark.toList := by
  rw [remarks, replay_append]
  have kept : ∀ l : List Remark, l.filter (fun _ => !false) ++ [] = l := by simp
  cases e with
  | completed c s r => rfl
  | _ => exact (kept _).symm

/-- The remark was made by a completed statement, and no later one has struck it. -/
def Stands (P : Platform) (log : List Event) (e : Remark) : Prop :=
  ∃ front made rest, log = front ++ made :: rest ∧ made.remark = some e ∧
    ∀ later ∈ rest, later.strikes P.collate e.number = false

theorem mem_remarks {log : List Event} {e : Remark} : e ∈ remarks P log ↔ Stands P log e := by
  induction log using List.reverseRecOn with
  | nil =>
    refine iff_of_false List.not_mem_nil ?_
    rintro ⟨front, made, rest, split, -⟩
    cases front <;> cases split
  | append_singleton log x ih =>
    rw [remarks_snoc, List.mem_append, List.mem_filter, ih, Bool.not_eq_true', Option.mem_toList]
    constructor
    · rintro (⟨⟨front, made, rest, rfl, is, quiet⟩, spared⟩ | new)
      · refine ⟨front, made, rest ++ [x], by simp, is, fun later mem => ?_⟩
        rcases List.mem_append.mp mem with old | last
        · exact quiet later old
        · rw [List.mem_singleton.mp last]
          exact spared
      · exact ⟨log, x, [], rfl, new, fun _ mem => absurd mem List.not_mem_nil⟩
    · rintro ⟨front, made, rest, split, is, quiet⟩
      rcases List.eq_nil_or_concat rest with rfl | ⟨most, last, rfl⟩
      · obtain ⟨-, same⟩ := List.append_inj' split rfl
        cases same
        exact Or.inr is
      · rw [List.concat_eq_append] at split quiet
        rw [← List.cons_append, ← List.append_assoc] at split
        obtain ⟨rfl, same⟩ := List.append_inj' split rfl
        cases same
        exact Or.inl ⟨⟨front, made, most, rfl, is,
          fun later mem => quiet later (List.mem_append_left _ mem)⟩,
          quiet _ (List.mem_append_right _ (List.mem_singleton_self _))⟩

/-- What the comments of a task are while these are the remarks. -/
def under (collate : String → String) (id : JsVal) (l : List Remark) : List Remark :=
  l.filter fun e => eqLit collate e.task id.lit = some true

theorem getComment_reads {db db' : Database P.collate} {l : List Remark} {id : JsVal}
    {rows : List (Row CommentCol)} (scalar : id.isScalar = true) (shown : ShowsRemarks db l)
    (he : exec P.collate (.getComment id) db = some (rows, db')) :
    rows = (under P.collate id l).map Remark.row := by
  obtain ⟨v, given, he⟩ := Option.bind_eq_some_iff.mp he
  obtain ⟨q, parsed, he⟩ := Option.bind_eq_some_iff.mp he
  cases he
  rcases JsVal.bare_scalar scalar with ⟨none, -⟩ | ⟨same, -⟩
  · rw [none] at given
    cases given
  rw [same] at given
  cases given
  rw [JsVal.escape_scalar scalar] at parsed
  cases parsed
  rw [select, shown, List.filter_map]
  rfl

/-- At a look-up of comments the table shows the remarks of the log before it. -/
theorem remarks_answered {ls : List (Label P)} (plain : ∀ l ∈ ls, PlainLabel P l)
    {front rest : List Event} {c : Ctx} {id : JsVal} {rows : List (Row CommentCol)}
    (scalar : id.isScalar = true) (logged : (run (server P) ls (startUp P)).world.log =
      front ++ .completed c (.getComment id) rows :: rest) :
    rows = (under P.collate id (remarks P front)).map Remark.row := by
  obtain ⟨-, db, db', shown, he⟩ :=
    remarks_refine.answered (fun l mem => (plain l mem).admissible) logged
  exact getComment_reads scalar shown he

/-- Ann comments twice on a chore, strikes the first comment and reads what is left. -/
def annRemarks : List (Label samplePlatform) :=
  annsDay.take 6 ++ [
    .arrive { sid := 0, route := .addComment, body := .obj [("commentDescr", .str "done"),
      ("taskID", .str "t")] }, .settle 0 false,
    .arrive { sid := 0, route := .addComment, body := .obj [("commentDescr", .str "not yet"),
      ("taskID", .str "t")] }, .settle 0 false,
    .arrive { sid := 0, route := .deleteComment, body := .obj [("comment_id", .num 1)] },
    .settle 0 false,
    .arrive { sid := 0, route := .getComment, body := .obj [("task_id", .str "T")] },
    .settle 0 false]

def Event.readsComments (id : String) : Event → Bool
  | .completed _ (.getComment (.str t)) _ => t = id
  | _ => false

end OneRoof
