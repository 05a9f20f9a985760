import OneRoof.Everyone

/-!
# The comments of the selected task

Each selection asks for the comments of its task, and each answer replaces the list. The
answer to `addComment` is pushed as it is, and the answer to `deleteComment` is not used.
So the list is right when everything has arrived unless the answer of an older selection
comes late, or a comment is written after the query of the last one has run.
-/

namespace OneRoof

open Sql Async Async.Prog Prog
open Feed (Click)

variable {P : Platform}

/-- The rows of `tblCOMMENT` of a task. -/
def commentsOf (collate : String → String) (t : Tables) (id : String) : List (Row CommentCol) :=
  select collate (.eq .task_id (.str id)) t.comment

/-- The calls that the comments are about. -/
def Page.Move.comments : Page.Move → Bool
  | .click (.taskSelect _) | .click .submitComment | .click (.deleteComment _)
  | .click (.typeComment _) => true
  | .click _ => false
  | _ => true

def Page.Move.selects : Page.Move → Bool
  | .click (.taskSelect _) => true
  | _ => false

namespace Page

/-- The request of a click has not been answered by the server. -/
def Unread (tag : Nat) (p : Page P) : Prop :=
  tag ∈ p.sent.map Prod.fst ∨
    ∃ s ∈ p.served, s.tag = tag ∧ p.backend.world.reply s.rid = none

/-- Its answer has not reached the page. -/
def Unseen (tag : Nat) (p : Page P) : Prop :=
  tag ∈ p.sent.map Prod.fst ∨ tag ∈ p.served.map Served.tag

/-- Nothing gets between the selection and its comments: its query is not lost, no statement
that completes after it changes the comments of the task, and behind its answer there comes
neither the answer of an `addComment` nor other comments. -/
def Undisturbed (tag : Nat) (id : String) (p : Page P) : Page.Move → Prop
  | .serve i lost => ∀ q, p.backend.pending[i]? = some q →
      ((∃ s ∈ p.served, s.tag = tag ∧ q.ctx.rid = s.rid) → lost = false) ∧
      (¬ p.Unread tag → ∀ r db, exec P.collate q.stmt p.backend.world.db = some (r, db) →
        (commentsOf P.collate db.tables id).Perm
          (commentsOf P.collate p.backend.world.db.tables id))
  | .receive j => ∀ s, p.served[j]? = some s → ¬ p.Unseen tag →
      s.post.call ≠ .addComment ∧ (s.post.call = .getComment → ∀ data,
        p.backend.world.reply s.rid = some (.json data) →
          ∃ list, data = .arr list ∧ list.Perm p.feed.comments.items)
  | _ => True

/-- The comments are those of the task. -/
def ShowsComments (p : Page P) (id : String) : Prop :=
  ∃ list, p.feed.comments = .arr list ∧
    list.Perm ((commentsOf P.collate p.backend.world.db.tables id).map rowJs)

end Page

section Selection

variable {task : JsVal} {id : String} {c : Ctx}

/-- The request for the comments of a task. -/
def selectPost (task : JsVal) : Post := ⟨.getComment, .getComment, task.payload⟩

/-- The query for them, with the callback that answers. -/
def reading (c : Ctx) (id : String) : Pending Stmt Stmt.Reply Act Ctx :=
  ⟨c, .getComment (.str id), thenRun fun response => Prog.send (.json (rowsJs response)) c.user⟩

theorem payload_id (known : task.get "task_id" = .str id) :
    task.payload.get "task_id" = .str id := by
  cases task with
  | obj fields => exact known
  | _ => cases known

theorem handler_getComment (route : c.req.route = .getComment)
    (known : c.req.body.get "task_id" = .str id) (named : id ≠ "") :
    handler P c = .issue (reading c id).stmt (reading c id).k .done := by
  have truthy : (JsVal.str id).truthy = true := by simpa [JsVal.truthy] using named
  simp only [handler, OneRoof.route, route, getComment]
  generalize c.req.body.get "task_id" = v at known ⊢
  subst known
  rw [if_pos truthy]
  rfl

theorem exec_getComment (id : String) (db : Database P.collate) :
    exec P.collate (.getComment (.str id)) db = some (commentsOf P.collate db.tables id, db) := rfl

end Selection

section Phases

variable {tag : Nat} {id : String} {p : Page P} {sid : Nat}

/-- How far the selection with the tag is. -/
inductive Selected (tag : Nat) (id : String) (p : Page P) : Prop
  | sent {task : JsVal} (known : task.get "task_id" = .str id)
      (mem : (tag, selectPost task) ∈ p.sent)
  | asked {s : Served} {c : Ctx} (mem : s ∈ p.served) (mine : s.tag = tag)
      (call : s.post.call = .getComment) (own : c.rid = s.rid)
      (waits : inFlight s.rid p.backend = [reading c id])
      (unanswered : p.backend.world.history s.rid = [])
  | read {s : Served} {rows : List (Row CommentCol)} (mem : s ∈ p.served) (mine : s.tag = tag)
      (call : s.post.call = .getComment)
      (replies : p.backend.world.reply s.rid = some (.json (rowsJs rows)))
      (same : rows.Perm (commentsOf P.collate p.backend.world.db.tables id))
  | shown (seen : ¬ p.Unseen tag) (shows : p.ShowsComments id)

/-- When everything has arrived, the comments are shown. -/
theorem Selected.quiet (selected : Selected tag id p) (quiet : p.Quiet) : p.ShowsComments id := by
  obtain ⟨sent, pending, replies⟩ := quiet
  cases selected with
  | sent known mem =>
    rw [sent] at mem
    cases mem
  | asked mem mine call own waits =>
    rw [inFlight, pending] at waits
    cases waits
  | read mem mine call replied =>
    rw [replies _ mem] at replied
    cases replied
  | shown seen shows => exact shows

/-- The requests whose answers the comments depend on. -/
def Call.comments : Call → Bool
  | .getComment | .addComment | .deleteComment => true
  | _ => false

/-- The page posts nothing else, and its callbacks post nothing. -/
structure Plain (p : Page P) : Prop extends p.Numbered where
  sentCalls : ∀ t ∈ p.sent, t.2.call.comments = true
  servedCalls : ∀ s ∈ p.served, s.post.call.comments = true

theorem answered_silent {call : Call} (comments : call.comments = true) (data : JsVal)
    (feed : Feed) : (feed.answered call data).2 = [] := by
  cases call with
  | getComment | addComment | deleteComment => rfl
  | _ => cases comments

theorem click_posts {m : Click} (comments : Page.Move.comments (.click m) = true) (feed : Feed) :
    (feed.click m).2.length ≤ 1 ∧ ∀ post ∈ (feed.click m).2, post.call.comments = true := by
  cases m with
  | taskSelect task => simp [Feed.click, Feed.taskSelect, Call.comments]
  | submitComment =>
    simp only [Feed.click, Feed.submitComment]
    split <;> simp [Call.comments]
  | deleteComment comment => simp [Feed.click, Feed.deleteComment, Call.comments]
  | typeComment description => simp [Feed.click]
  | _ => cases comments

theorem Plain.move (plain : Plain p) (sid : Nat) {m : Page.Move} (comments : m.comments = true) :
    Plain (p.move sid m) := by
  have silent : ∀ s ∈ p.served, ∀ data, (p.feed.answered s.post.call data).2 = [] :=
    fun s mem data => answered_silent (plain.servedCalls s mem) data p.feed
  cases m with
  | click m =>
    obtain ⟨one, calls⟩ := click_posts comments p.feed
    refine ⟨plain.toNumbered.click one, fun t mem => ?_, plain.servedCalls⟩
    rcases List.mem_append.mp mem with old | new
    · exact plain.sentCalls t old
    · obtain ⟨post, posted, rfl⟩ := List.mem_map.mp new
      exact calls post posted
  | serve i lost =>
    exact ⟨plain.toNumbered.backend (.settle i lost), plain.sentCalls, plain.servedCalls⟩
  | deliver i env =>
    have numbered := plain.toNumbered.deliver sid i env
    simp only [Page.move]
    rcases Page.deliver_cases sid i env p with same | ⟨tag, post, waits, moved⟩
    · rw [same]
      exact plain
    · rw [moved] at numbered ⊢
      refine ⟨numbered, fun t mem => plain.sentCalls t (List.mem_of_mem_eraseIdx mem),
        fun s mem => ?_⟩
      rcases List.mem_append.mp mem with old | new
      · exact plain.servedCalls s old
      · rw [List.mem_singleton.mp new]
        exact plain.sentCalls _ (List.mem_of_getElem? waits)
  | receive j =>
    have numbered := plain.toNumbered.receive j silent
    simp only [Page.move]
    rcases Page.receive_cases j p with same | ⟨s, answer, waits, -, ⟨data, -, moved⟩ | ⟨-, moved⟩⟩
    · rw [same]
      exact plain
    · rw [moved, silent s (List.mem_of_getElem? waits), List.map_nil, List.append_nil] at numbered ⊢
      exact ⟨numbered, plain.sentCalls, fun s mem =>
        plain.servedCalls s (List.mem_of_mem_eraseIdx mem)⟩
    · rw [moved] at numbered ⊢
      exact ⟨numbered, plain.sentCalls, fun s mem =>
        plain.servedCalls s (List.mem_of_mem_eraseIdx mem)⟩

end Phases

section Steps

variable {tag : Nat} {id : String} {p : Page P}

theorem unanswered_of_history {w : World P} {rid : Nat} (none : w.history rid = []) :
    w.log.any (Event.answers rid) = false := by
  rw [List.any_eq_false]
  intro e mem answers
  have own : e ∈ w.history rid := by
    refine List.mem_filter.mpr ⟨mem, ?_⟩
    cases e <;> simp_all [Event.answers, Event.ctx]
  rw [none] at own
  cases own

/-- A click that selects nothing leaves the comments. -/
theorem click_keeps {m : Click} (comments : Page.Move.comments (.click m) = true)
    (keeps : Page.Move.selects (.click m) = false) (feed : Feed) :
    (feed.click m).1.comments = feed.comments := by
  cases m with
  | taskSelect task => cases keeps
  | submitComment =>
    simp only [Feed.click, Feed.submitComment]
    split <;> rfl
  | deleteComment comment => rfl
  | typeComment description => rfl
  | _ => cases comments

theorem Selected.click {m : Click} (selected : Selected tag id p) (old : tag < p.clicks.length)
    (comments : Page.Move.comments (.click m) = true)
    (keeps : Page.Move.selects (.click m) = false) : Selected tag id (p.click m) := by
  cases selected with
  | sent known mem => exact .sent known (List.mem_append_left _ mem)
  | asked mem mine call own waits unanswered => exact .asked mem mine call own waits unanswered
  | read mem mine call replies same => exact .read mem mine call replies same
  | shown seen shows =>
    refine .shown (fun unseen => seen ?_) ?_
    · rcases unseen with sent | served
      · simp only [Page.click, List.map_append, List.mem_append] at sent
        rcases sent with before | new
        · exact Or.inl before
        · obtain ⟨x, posted, rfl⟩ := List.mem_map.mp new
          obtain ⟨post, -, rfl⟩ := List.mem_map.mp posted
          exact absurd old (Nat.lt_irrefl _)
      · exact Or.inr served
    · obtain ⟨list, shown, perm⟩ := shows
      exact ⟨list, (click_keeps comments keeps p.feed).trans shown, perm⟩

/-- The request for the comments has arrived. -/
theorem arrive_reading {σ : Config P} (fresh : Fresh σ) {q : Request}
    (route : q.route = .getComment) (known : q.body.get "task_id" = .str id) (named : id ≠ "") :
    inFlight σ.world.nextReq (step (server P) (.arrive q) σ) = [reading (σ.world.context q) id] ∧
      (step (server P) (.arrive q) σ).world.history σ.world.nextReq = [] := by
  have asks : handler P (σ.world.context q) = _ :=
    handler_getComment (c := σ.world.context q) route known named
  rw [arrive_eq, asks]
  refine ⟨?_, fresh.history (Nat.le_refl _)⟩
  have none := fresh.inFlight (Nat.le_refl σ.world.nextReq)
  change (σ.pending ++ [reading (σ.world.context q) id]).filter _ = _
  rw [List.filter_append]
  exact congrArg₂ (· ++ ·) none (List.filter_cons_of_pos (decide_eq_true rfl))

theorem Selected.deliver (selected : Selected tag id p) (numbered : p.Numbered) (named : id ≠ "")
    (sid i : Nat) (env : Request) : Selected tag id (p.deliver sid i env) := by
  rcases Page.deliver_cases sid i env p with same | ⟨tag', post, waits, moved⟩
  · rw [same]
    exact selected
  rw [moved]
  have there := List.mem_of_getElem? waits
  cases selected with
  | @sent task known mem =>
    rcases mem_or_erased waits mem with here | rest
    · cases here
      obtain ⟨reads, unanswered⟩ := arrive_reading numbered.fresh
        (q := (selectPost task).request sid env) rfl (payload_id known) named
      exact .asked (List.mem_append_right _ (List.mem_singleton_self _)) rfl rfl rfl reads
        unanswered
    · exact .sent known rest
  | @asked s c mem mine call own reads unanswered =>
    have other : (p.backend.world.context (post.request sid env)).rid ≠ s.rid :=
      Nat.ne_of_gt (numbered.served s mem)
    have same := enter_sameFor other (handler P (p.backend.world.context (post.request sid env)))
      ⟨p.backend.world.next, p.backend.pending⟩
    refine .asked (List.mem_append_left _ mem) mine call own ?_ (same.history.trans unanswered)
    have flights : (inFlight s.rid _).Perm [reading c id] := same.inFlight.trans (.of_eq reads)
    exact List.perm_singleton.mp flights
  | read mem mine call replies same =>
    refine .read (List.mem_append_left _ mem) mine call
      (reply_mono (step_log (.arrive (post.request sid env)) p.backend) replies) ?_
    rw [arrive_eq, enter_db]
    exact same
  | shown seen shows =>
    refine .shown (fun unseen => seen ?_) ?_
    · rcases unseen with sent | served
      · exact Or.inl (((List.eraseIdx_sublist p.sent i).map _).subset sent)
      · rw [List.map_append] at served
        rcases List.mem_append.mp served with before | new
        · exact Or.inr before
        · rw [List.mem_singleton.mp new]
          exact Or.inl (List.mem_map_of_mem there)
    · obtain ⟨list, shown, perm⟩ := shows
      refine ⟨list, shown, ?_⟩
      rw [arrive_eq, enter_db]
      exact perm

/-- What completes at the server leaves the comments of the task where the condition says so. -/
theorem settle_commentsOf {σ : Config P} {i : Nat} {lost : Bool}
    (writes : ∀ q, σ.pending[i]? = some q → ∀ r db,
      exec P.collate q.stmt σ.world.db = some (r, db) →
      (commentsOf P.collate db.tables id).Perm (commentsOf P.collate σ.world.db.tables id)) :
    (commentsOf P.collate σ.world.db.tables id).Perm
      (commentsOf P.collate (settle (server P) i lost σ).world.db.tables id) := by
  rcases server_settle_cases i lost σ with
    same | ⟨q, waits, ⟨settled, -⟩ | ⟨r, db, -, completes, settled⟩⟩
  · rw [same]
  · rw [settled, enter_db]
    exact List.Perm.refl _
  · rw [settled, enter_db]
    exact (writes q waits r db completes).symm

/-- The query for the comments completes and is answered. -/
theorem settle_reading {σ : Config P} {i : Nat} {c : Ctx}
    (waits : σ.pending[i]? = some (reading c id))
    (unanswered : σ.world.log.any (Event.answers c.rid) = false) :
    (settle (server P) i false σ).world.db = σ.world.db ∧
      (settle (server P) i false σ).world.reply c.rid =
        some (.json (rowsJs (commentsOf P.collate σ.world.db.tables id))) := by
  have still : (σ.world.complete c (.getComment (.str id))
      (commentsOf P.collate σ.world.db.tables id) σ.world.db).log.any (Event.answers c.rid) =
        false := by
    simpa [World.complete, Event.answers] using unanswered
  rw [settle_at waits (exec_getComment id σ.world.db)]
  simp only [thenRun]
  rw [enter_send_open _ _ _ still]
  exact ⟨rfl, reply_first still rfl⟩

theorem Selected.serve {i : Nat} {lost : Bool} (selected : Selected tag id p)
    (numbered : p.Numbered) (undisturbed : p.Undisturbed tag id (.serve i lost)) :
    Selected tag id { p with backend := settle (server P) i lost p.backend } := by
  have grows := step_log (.settle i lost) p.backend
  cases selected with
  | sent known mem => exact .sent known mem
  | @asked s c mem mine call own reads unanswered =>
    by_cases there : ∃ q, p.backend.pending[i]? = some q ∧ q.ctx.rid = s.rid
    · obtain ⟨q, waits, hers⟩ := there
      have kept := (undisturbed q waits).1 ⟨s, mem, mine, hers⟩
      subst kept
      have single : q ∈ inFlight s.rid p.backend :=
        List.mem_filter.mpr ⟨List.mem_of_getElem? waits, decide_eq_true hers⟩
      rw [reads] at single
      cases List.mem_singleton.mp single
      have none := unanswered_of_history unanswered
      rw [← own] at none
      obtain ⟨db, replies⟩ := settle_reading waits none
      rw [own] at replies
      refine .read mem mine call replies ?_
      rw [db]
    · have same : SameFor s.rid p.backend (settle (server P) i lost p.backend) := by
        rcases server_settle_cases i lost p.backend with same | ⟨q, waits, -⟩
        · rw [same]
          exact ⟨List.Perm.refl _, rfl, rfl⟩
        · exact settle_sameFor waits fun hers => there ⟨q, waits, hers⟩
      refine .asked mem mine call own ?_ (same.history.trans unanswered)
      have flights : (inFlight s.rid _).Perm [reading c id] := same.inFlight.trans (.of_eq reads)
      exact List.perm_singleton.mp flights
  | read mem mine call replies same =>
    have done : ¬ p.Unread tag := by
      rintro (sent | ⟨s', mem', mine', silent⟩)
      · exact numbered.not_sent mem (mine ▸ sent)
      · rw [numbered.eq_of_tag mem mem' (mine'.trans mine.symm), replies] at silent
        cases silent
    exact .read mem mine call (reply_mono grows replies)
      (same.trans (settle_commentsOf fun q waits => (undisturbed q waits).2 done))
  | shown seen shows =>
    have done : ¬ p.Unread tag := by
      rintro (sent | ⟨s', mem', mine', -⟩)
      · exact seen (Or.inl sent)
      · exact seen (Or.inr (mine' ▸ List.mem_map_of_mem mem'))
    obtain ⟨list, shown, perm⟩ := shows
    refine .shown seen ⟨list, shown, perm.trans (List.Perm.map _ ?_)⟩
    exact settle_commentsOf fun q waits => (undisturbed q waits).2 done

/-- An answer that reaches the page behind the comments leaves them. -/
theorem shown_answered {call : Call} (comments : call.comments = true) (pushes : call ≠ .addComment)
    {data : JsVal} {feed : Feed} {rows : List JsVal}
    (older : call = .getComment → ∃ list, data = .arr list ∧ list.Perm feed.comments.items)
    (shows : ∃ list, feed.comments = .arr list ∧ list.Perm rows) :
    ∃ list, (feed.answered call data).1.comments = .arr list ∧ list.Perm rows := by
  cases call with
  | getComment =>
    obtain ⟨list, shown, perm⟩ := shows
    obtain ⟨list', rfl, same⟩ := older rfl
    rw [shown] at same
    exact ⟨list', rfl, same.trans perm⟩
  | addComment => exact absurd rfl pushes
  | deleteComment => exact shows
  | _ => cases comments

theorem Selected.receive {j : Nat} (selected : Selected tag id p) (plain : Plain p)
    (undisturbed : p.Undisturbed tag id (.receive j)) : Selected tag id (p.receive j) := by
  rcases Page.receive_cases j p with same | ⟨s', answer, here, replied, outcome⟩
  · rw [same]
    exact selected
  have there := List.mem_of_getElem? here
  have comments := plain.servedCalls s' there
  have kept : ∀ s ∈ p.served, s ≠ s' → s ∈ p.served.eraseIdx j :=
    fun s mem other => (mem_or_erased here mem).resolve_left other
  have unseen : ∀ {q : Page P}, q.Unseen tag → q.sent = p.sent →
      q.served = p.served.eraseIdx j → p.Unseen tag := by
    rintro q (waits | waits) sent served
    · exact Or.inl (sent ▸ waits)
    · rw [served] at waits
      exact Or.inr (((List.eraseIdx_sublist p.served j).map _).subset waits)
  rcases outcome with ⟨data, rfl, moved⟩ | ⟨other, moved⟩
  · rw [answered_silent comments, List.map_nil, List.append_nil] at moved
    rw [moved]
    cases selected with
    | sent known mem => exact .sent known mem
    | @asked s c mem mine call own reads unanswered =>
      refine .asked (kept s mem fun same => ?_) mine call own reads unanswered
      rw [← same, reply_of_unanswered (unanswered_of_history unanswered)] at replied
      cases replied
    | @read s rows mem mine call replies same =>
      by_cases hers : s = s'
      · subst hers
        rw [replies] at replied
        cases replied
        rw [call]
        refine .shown ?_ ⟨rows.map rowJs, rfl, same.map rowJs⟩
        rintro (sent | served)
        · exact plain.not_sent mem (mine ▸ sent)
        · exact plain.gone here (mine ▸ served)
      · exact .read (kept s mem hers) mine call replies same
    | shown seen shows =>
      obtain ⟨pushes, older⟩ := undisturbed s' here seen
      exact .shown (fun waits => seen (unseen waits rfl rfl))
        (shown_answered comments pushes (fun call => older call data replied) shows)
  · rw [moved]
    cases selected with
    | sent known mem => exact .sent known mem
    | @asked s c mem mine call own reads unanswered =>
      refine .asked (kept s mem fun same => ?_) mine call own reads unanswered
      rw [← same, reply_of_unanswered (unanswered_of_history unanswered)] at replied
      cases replied
    | @read s rows mem mine call replies same =>
      refine .read (kept s mem fun hers => ?_) mine call replies same
      rw [← hers, replies] at replied
      cases replied
      exact other _ rfl
    | shown seen shows => exact .shown (fun waits => seen (unseen waits rfl rfl)) shows

end Steps

section Runs

variable {tag : Nat} {id : String} {p : Page P}

/-- What holds from the selection on. -/
structure Selecting (tag : Nat) (id : String) (p : Page P) : Prop extends Plain p where
  before : tag < p.clicks.length
  selected : Selected tag id p

theorem Selecting.move (selecting : Selecting tag id p) (named : id ≠ "") (sid : Nat)
    {m : Page.Move} (comments : m.comments = true) (keeps : m.selects = false)
    (undisturbed : p.Undisturbed tag id m) : Selecting tag id (p.move sid m) := by
  have plain := selecting.toPlain.move sid comments
  cases m with
  | click m =>
    refine ⟨plain, ?_, selecting.selected.click selecting.before comments keeps⟩
    simp only [Page.move, Page.click, List.length_append, List.length_singleton]
    exact Nat.lt_succ_of_lt selecting.before
  | serve i lost =>
    exact ⟨plain, selecting.before, selecting.selected.serve selecting.toNumbered undisturbed⟩
  | deliver i env =>
    refine ⟨plain, ?_, selecting.selected.deliver selecting.toNumbered named sid i env⟩
    simp only [Page.move, Page.deliver]
    split <;> exact selecting.before
  | receive j =>
    refine ⟨plain, ?_, selecting.selected.receive selecting.toPlain undisturbed⟩
    simp only [Page.move]
    rcases Page.receive_cases j p with same | ⟨s, answer, -, -, ⟨data, -, moved⟩ | ⟨-, moved⟩⟩
    · rw [same]
      exact selecting.before
    · rw [moved]
      exact selecting.before
    · rw [moved]
      exact selecting.before

theorem click_selecting (plain : Plain p) {task : JsVal} (known : task.get "task_id" = .str id) :
    Selecting p.clicks.length id (p.click (.taskSelect task)) where
  toPlain := plain.move 0 (m := .click (.taskSelect task)) rfl
  before := by simp [Page.click]
  selected := .sent known (List.mem_append_right _ (List.mem_singleton_self _))

end Runs

/-- In every run in which nothing gets between the last selection and its comments, the page
shows the comments of the selected task when everything has arrived. -/
theorem selected_comments_shown (sid : Nat) (feed : Feed) (db : Database P.collate)
    (store : Nat → Option SessionUser) {before after : List Page.Move} {task : JsVal} {id : String}
    (own : ∀ m ∈ before ++ after, m.comments = true) (last : ∀ m ∈ after, m.selects = false)
    (known : task.get "task_id" = .str id) (named : id ≠ "")
    (undisturbed : Traces.Along (Page.move sid)
      (Page.Undisturbed (Page.run sid before (.opened feed db store)).clicks.length id) after
      ((Page.run sid before (.opened feed db store)).click (.taskSelect task)))
    (quiet : (Page.run sid (before ++ .click (.taskSelect task) :: after)
      (.opened feed db store)).Quiet) :
    (Page.run sid (before ++ .click (.taskSelect task) :: after)
      (.opened feed db store)).ShowsComments id := by
  have opened : Plain (Page.opened feed db store) :=
    ⟨Page.opened_numbered feed db store, (fun _ mem => nomatch mem), fun _ mem => nomatch mem⟩
  have plain : Plain (Page.run sid before (.opened feed db store)) :=
    Traces.run_invariant Plain (fun _ _ comments plain => plain.move sid comments)
      (Traces.along_of_forall (fun m mem => own m (List.mem_append_left _ mem)) _) opened
  have along : Traces.Along (Page.move sid) (fun q m => (m.comments = true ∧ m.selects = false) ∧
      q.Undisturbed (Page.run sid before (.opened feed db store)).clicks.length id m) after
      ((Page.run sid before (.opened feed db store)).click (.taskSelect task)) :=
    (Traces.along_of_forall (fun m mem => ⟨own m (List.mem_append_right _ mem), last m mem⟩) _).and
      undisturbed
  have selecting := Traces.run_invariant (Selecting _ id)
    (fun _ _ meets selecting => selecting.move named sid meets.1.1 meets.1.2 meets.2) along
    (click_selecting plain known)
  rw [Page.run, Traces.run_append, Traces.run_cons] at quiet ⊢
  exact selecting.selected.quiet quiet

section Samples

instance (tag : Nat) (p : Page P) : Decidable (p.Unread tag) :=
  decidable_of_iff (tag ∈ p.sent.map Prod.fst ∨
    p.served.any (fun s => decide (s.tag = tag) && (p.backend.world.reply s.rid).isNone) = true)
    (by simp [Page.Unread])

instance (tag : Nat) (p : Page P) : Decidable (p.Unseen tag) :=
  inferInstanceAs (Decidable (_ ∨ _))

/-- The condition as a check: what completes is in front of the query of the selection, and
what arrives is in front of its answer. -/
def Page.undisturbed (tag : Nat) (p : Page P) : Page.Move → Bool
  | .serve _ lost => !lost && p.Unread tag
  | .receive _ => p.Unseen tag
  | _ => true

theorem undisturbed_of_check {tag : Nat} {id : String} {p : Page P} {m : Page.Move}
    (check : p.undisturbed tag m = true) : p.Undisturbed tag id m := by
  cases m with
  | serve i lost =>
    simp only [Page.undisturbed, Bool.and_eq_true, Bool.not_eq_true', decide_eq_true_eq] at check
    exact fun _ _ => ⟨fun _ => check.1, fun read => absurd check.2 read⟩
  | receive j => exact fun _ _ seen => absurd (of_decide_eq_true check) seen
  | _ => trivial

/-- Ann's session. -/
def annsSession : SessionUser where
  user_id := some 1
  email := .str "ann@x"
  displayName := .str "Ann"

def dishes : JsVal := .obj [("task_id", .str "a"), ("task_name", .str "dishes")]

/-- Ann selects the dishes and writes a comment, and everything arrives in order. -/
def annComments : List Page.Move :=
  [.click (.taskSelect dishes), .deliver 0 { sid := 0, route := .tasks }, .serve 0 false,
    .receive 0, .click (.typeComment (.str "done")), .click .submitComment,
    .deliver 0 { sid := 0, route := .tasks }, .serve 0 false, .receive 0]

/-- The page of Ann, over tables in which she is the first user. -/
def annsPage : Page samplePlatform := .opened {} annsTask fun _ => some annsSession

/-- The comments come. -/
def commentsCome : List Page.Move :=
  [.deliver 0 { sid := 0, route := .tasks }, .serve 0 false, .receive 0]

/-- She selects the dishes once more, and sees her comment. -/
theorem selected_comments_sample :
    (commentsOf samplePlatform.collate (Page.run 0 (annComments ++ .click (.taskSelect dishes) ::
      commentsCome) annsPage).backend.world.db.tables "a").length = 1 ∧
    (Page.run 0 (annComments ++ .click (.taskSelect dishes) :: commentsCome)
      annsPage).ShowsComments "a" := by
  have checked : Traces.Along (Page.move 0) (fun p m => p.undisturbed
      (Page.run 0 annComments annsPage).clicks.length m = true) commentsCome
        ((Page.run 0 annComments annsPage).click (.taskSelect dishes)) := by decide +kernel
  exact ⟨by decide +kernel, selected_comments_shown 0 {} annsTask (fun _ => some annsSession)
    (by decide) (by decide) rfl (by decide) (checked.mono fun _ _ => undisturbed_of_check)
    (by decide +kernel)⟩

/-- At first she sees the answer to `addComment` in the place of her comment. -/
theorem response_shown :
    (∀ m ∈ annComments, m.comments = true) ∧ (Page.run 0 annComments annsPage).Quiet ∧
    ¬ (Page.run 0 annComments annsPage).ShowsComments "a" := by
  refine ⟨by decide, by decide +kernel, ?_⟩
  rintro ⟨list, shown, perm⟩
  have pushed : (Page.run 0 annComments annsPage).feed.comments.items.any
      (fun v => (v.get "data").truthy) = true := by decide +kernel
  rw [shown] at pushed
  obtain ⟨v, mem, data⟩ := List.any_eq_true.mp pushed
  obtain ⟨row, -, rfl⟩ := List.mem_map.mp (perm.mem_iff.mp mem)
  cases data

end Samples

end OneRoof
