import OneRoof.Statements

/-!
# Steps and runs of the server

What one step can do to the tables, and that the number given to the next
request is one nobody has used. Requests are told apart by that number alone.
-/

namespace OneRoof

open Sql Async

variable {P : Platform}

theorem perform_db (c : Ctx) (a : Act) (w : World P) :
    ((server P).perform c a w).2.db = w.db := by
  cases a <;> simp only [server, World.perform, World.answer] <;> split <;> rfl

theorem perform_nextReq (c : Ctx) (a : Act) (w : World P) :
    ((server P).perform c a w).2.nextReq = w.nextReq := by
  cases a <;> simp only [server, World.perform, World.answer] <;> split <;> rfl

theorem enter_db (c : Ctx) (prog : Prog) (σ : Config P) :
    (enter (server P) c prog σ).world.db = σ.world.db :=
  enter_observe (f := World.db) perform_db c prog σ

theorem enter_nextReq (c : Ctx) (prog : Prog) (σ : Config P) :
    (enter (server P) c prog σ).world.nextReq = σ.world.nextReq :=
  enter_observe (f := World.nextReq) perform_nextReq c prog σ

/-- The world after a statement has completed, before its callback runs. -/
def World.complete (w : World P) (c : Ctx) (s : Stmt) (r : s.Reply) (db : Database P.collate) :
    World P :=
  { w with db := db, log := w.log ++ [.completed c s r] }

def World.fail (w : World P) (c : Ctx) (s : Stmt) : World P :=
  { w with log := w.log ++ [.failed c s] }

/-- All that a settlement can do: nothing, a failure, or a completed statement. -/
theorem server_settle_cases (i : Nat) (lost : Bool) (σ : Config P) :
    settle (server P) i lost σ = σ ∨ ∃ p, σ.pending[i]? = some p ∧
      (settle (server P) i lost σ = enter (server P) p.ctx (p.k none)
          ⟨σ.world.fail p.ctx p.stmt, σ.pending.eraseIdx i⟩ ∧
          (lost = false → exec P.collate p.stmt σ.world.db = none) ∨
        ∃ r db, lost = false ∧ exec P.collate p.stmt σ.world.db = some (r, db) ∧
          settle (server P) i lost σ = enter (server P) p.ctx (p.k (some r))
            ⟨σ.world.complete p.ctx p.stmt r db, σ.pending.eraseIdx i⟩) := by
  rcases settle_cases (server P) i lost σ with same | ⟨p, hp, hs⟩
  · exact Or.inl same
  refine Or.inr ⟨p, hp, ?_⟩
  cases lost with
  | true => exact Or.inl ⟨hs, fun h => absurd h (by simp)⟩
  | false =>
    have hexec : (server P).exec p.ctx p.stmt σ.world =
        (exec P.collate p.stmt σ.world.db).map fun (r, db) =>
          (r, σ.world.complete p.ctx p.stmt r db) := rfl
    rw [if_neg (by simp), hexec] at hs
    cases he : exec P.collate p.stmt σ.world.db with
    | none =>
      rw [he] at hs
      exact Or.inl ⟨hs, fun _ => rfl⟩
    | some rd =>
      rw [he] at hs
      exact Or.inr ⟨rd.1, rd.2, rfl, rfl, hs⟩

/-- The context a request gets when it arrives. -/
def World.context (w : World P) (q : Request) : Ctx := ⟨w.nextReq, q, w.store q.sid⟩

def World.next (w : World P) : World P := { w with nextReq := w.nextReq + 1 }

theorem arrive_eq (q : Request) (σ : Config P) :
    step (server P) (.arrive q) σ = enter (server P) (σ.world.context q)
      (handler P (σ.world.context q)) ⟨σ.world.next, σ.pending⟩ := rfl

theorem step_nextReq (l : Label P) (σ : Config P) :
    σ.world.nextReq ≤ (step (server P) l σ).world.nextReq := by
  cases l with
  | arrive q =>
    rw [arrive_eq, enter_nextReq]
    exact Nat.le_succ _
  | disturb d => exact Nat.le_refl _
  | settle i lost =>
    simp only [step]
    rcases server_settle_cases i lost σ with same | ⟨p, -, ⟨hs, -⟩ | ⟨r, db, -, -, hs⟩⟩
    · rw [same]
    · rw [hs, enter_nextReq]
      exact Nat.le_refl _
    · rw [hs, enter_nextReq]
      exact Nat.le_refl _

theorem settle_at {σ : Config P} {i : Nat} {c : Ctx} {s : Stmt} {k : Option s.Reply → Prog}
    {r : s.Reply} {db : Database P.collate} (waits : σ.pending[i]? = some ⟨c, s, k⟩)
    (completes : exec P.collate s σ.world.db = some (r, db)) :
    settle (server P) i false σ =
      enter (server P) c (k (some r)) ⟨σ.world.complete c s r db, σ.pending.eraseIdx i⟩ := by
  have he : (server P).exec c s σ.world = some (r, σ.world.complete c s r db) := by
    change (exec P.collate s σ.world.db).map _ = _
    rw [completes]
    rfl
  simp only [settle, waits, Bool.false_eq_true, if_false, he, deliver]

theorem settle_refused {σ : Config P} {i : Nat} {c : Ctx} {s : Stmt}
    {k : Option s.Reply → Prog} (waits : σ.pending[i]? = some ⟨c, s, k⟩)
    (refused : exec P.collate s σ.world.db = none) :
    settle (server P) i false σ =
      enter (server P) c (k none) ⟨σ.world.fail c s, σ.pending.eraseIdx i⟩ := by
  have he : (server P).exec c s σ.world = none := by
    change (exec P.collate s σ.world.db).map _ = _
    rw [refused]
    rfl
  simp only [settle, waits, Bool.false_eq_true, if_false, he, deliver]
  rfl

theorem settle_last {σ : Config P} {ps : List (Pending Stmt Stmt.Reply Act Ctx)} {c : Ctx}
    {s : Stmt} {k : Option s.Reply → Prog} {r : s.Reply} {db : Database P.collate}
    (last : σ.pending = ps ++ [⟨c, s, k⟩])
    (completes : exec P.collate s σ.world.db = some (r, db)) :
    settle (server P) ps.length false σ =
      enter (server P) c (k (some r)) ⟨σ.world.complete c s r db, ps⟩ := by
  have hrest : σ.pending.eraseIdx ps.length = ps := by
    rw [last, List.eraseIdx_append_of_length_le (Nat.le_refl _)]
    simp
  have waits : σ.pending[ps.length]? = some ⟨c, s, k⟩ := by simp [last]
  rw [settle_at waits completes, hrest]

/-- Ending a response issues nothing and is logged unless it had ended before. -/
theorem enter_send (c : Ctx) (answer : Answer) (user : Option SessionUser) (σ : Config P) :
    (enter (server P) c (Prog.send answer user) σ).pending = σ.pending ∧
    ((enter (server P) c (Prog.send answer user) σ).world.log = σ.world.log ∨
      (enter (server P) c (Prog.send answer user) σ).world.log =
        σ.world.log ++ [.answered c answer user]) := by
  simp only [Prog.send, enter, server, World.perform, World.answer]
  split
  · exact ⟨rfl, Or.inl rfl⟩
  · exact ⟨rfl, Or.inr rfl⟩

/-- A response that has not ended is ended, and the session saved with it. -/
theorem enter_send_open (c : Ctx) (answer : Answer) (user : Option SessionUser) {σ : Config P}
    (unanswered : σ.world.log.any (Event.answers c.rid) = false) :
    enter (server P) c (Prog.send answer user) σ =
      ⟨{ σ.world with
          log := σ.world.log ++ [.answered c answer user]
          store := Function.update σ.world.store c.req.sid user }, σ.pending⟩ := by
  simp [Prog.send, enter, server, World.perform, World.answer, unanswered]

/-- A request with one statement whose outcome is there before anything else. -/
theorem serve_single {σ : Config P} {q : Request} {s : Stmt} {k : Option s.Reply → Prog}
    {r : s.Reply} {db : Database P.collate}
    (single : handler P (σ.world.context q) = .issue s k .done)
    (completes : exec P.collate s σ.world.db = some (r, db)) :
    run (server P) [.arrive q, .settle σ.pending.length false] σ =
      enter (server P) (σ.world.context q) (k (some r))
        ⟨σ.world.next.complete (σ.world.context q) s r db, σ.pending⟩ := by
  simp only [run_cons, run_nil, arrive_eq, single, enter]
  exact settle_last rfl completes

/-- A step of the server leaves the tables or completes a statement in flight. -/
theorem step_db_cases (l : Label P) (own : Label.own P l) (σ : Config P) :
    (step (server P) l σ).world.db = σ.world.db ∨
    ∃ i p r, l = .settle i false ∧ σ.pending[i]? = some p ∧
      exec P.collate p.stmt σ.world.db = some (r, (step (server P) l σ).world.db) := by
  cases l with
  | arrive q => exact Or.inl (enter_db _ _ _)
  | disturb d => exact absurd own id
  | settle i lost =>
    simp only [step]
    rcases server_settle_cases i lost σ with same | ⟨p, hp, ⟨hs, -⟩ | ⟨r, db, rfl, he, hs⟩⟩
    · exact Or.inl (by rw [same])
    · exact Or.inl (by rw [hs]; exact enter_db _ _ _)
    · refine Or.inr ⟨i, p, r, rfl, hp, ?_⟩
      rw [hs, he, enter_db]
      rfl

/-- A request that looks a user up, with both copies of the query answered first. -/
theorem serve_lookup {w : World P} {q : Request} {s : Stmt} {k : Option s.Reply → Prog}
    {r : s.Reply}
    (looks : handler P (w.context q) = .issue s (fun _ => .done) (.issue s k .done))
    (completes : exec P.collate s w.db = some (r, w.db)) :
    ∃ w', w'.db = w.db ∧ w'.store = w.store ∧
      run (server P) [.arrive q, .settle 0 false, .settle 0 false] ⟨w, []⟩ =
        enter (server P) (w.context q) (k (some r)) ⟨w', []⟩ := by
  let c := w.context q
  let w₁ := w.next.complete c s r w.db
  refine ⟨w₁.complete c s r w.db, rfl, rfl, ?_⟩
  have first : settle (server P) 0 false ⟨w.next, [⟨c, s, fun _ => .done⟩, ⟨c, s, k⟩]⟩ =
      ⟨w₁, [⟨c, s, k⟩]⟩ := (settle_at (k := fun _ => .done) rfl completes).trans rfl
  have second : settle (server P) 0 false ⟨w₁, [⟨c, s, k⟩]⟩ =
      enter (server P) c (k (some r)) ⟨w₁.complete c s r w.db, []⟩ := settle_at rfl completes
  rw [run_cons, arrive_eq, looks]
  exact (congrArg _ first).trans second

/-- The first statement a program starts is the first in flight. -/
theorem settle_first {w : World P} (c : Ctx) {s : Stmt} (k : Option s.Reply → Prog) (rest : Prog)
    {r : s.Reply} {db : Database P.collate} (completes : exec P.collate s w.db = some (r, db)) :
    ∃ w' : World P, ∃ ps, settle (server P) 0 false (enter (server P) c (.issue s k rest) ⟨w, []⟩) =
      enter (server P) c (k (some r)) ⟨w'.complete c s r db, ps⟩ := by
  obtain ⟨new, pending, -⟩ := enter_pending (server P) c rest ⟨w, [⟨c, s, k⟩]⟩
  have waits : (enter (server P) c rest ⟨w, [⟨c, s, k⟩]⟩).pending[0]? = some ⟨c, s, k⟩ := by
    rw [pending]
    rfl
  have here : exec P.collate s (enter (server P) c rest ⟨w, [⟨c, s, k⟩]⟩).world.db =
      some (r, db) := by
    rw [enter_db]
    exact completes
  exact ⟨_, _, settle_at waits here⟩

theorem settle_started {w : World P} {c : Ctx} {s : Stmt} {k : Option s.Reply → Prog} {rest : Prog}
    {r : s.Reply} {db : Database P.collate} (completes : exec P.collate s w.db = some (r, db)) :
    (settle (server P) 0 false (enter (server P) c (.issue s k rest) ⟨w, []⟩)).world.db = db := by
  obtain ⟨w', ps, settled⟩ := settle_first c k rest completes
  rw [settled, enter_db]
  rfl

/-- Only settlements of what is in flight. -/
def Settles (ls : List (Label P)) : Prop := ∀ l ∈ ls, ∃ i lost, l = .settle i lost

/-- Losing every statement that is in flight changes no table. -/
theorem lose_db (n : Nat) (σ : Config P) :
    (run (server P) (List.replicate n (.settle 0 true)) σ).world.db = σ.world.db := by
  induction n generalizing σ with
  | zero => rfl
  | succ n ih =>
    rw [List.replicate_succ, run_cons, ih]
    rcases step_db_cases (.settle 0 true) trivial σ with same | ⟨i, p, r, h, -⟩
    · exact same
    · cases h

/-- Where only selects are in flight nothing changes any more. -/
theorem selects_run_db {ls : List (Label P)} (settles : Settles ls) {σ : Config P}
    (selects : Bounded (fun _ s => s.isSelect = true) σ) :
    (run (server P) ls σ).world.db = σ.world.db := by
  induction ls generalizing σ with
  | nil => rfl
  | cons l ls ih =>
    obtain ⟨i, lost, rfl⟩ := settles l List.mem_cons_self
    have bounded : Bounded (fun _ s => s.isSelect = true) (step (server P) (.settle i lost) σ) :=
      settle_bounded i lost σ selects
    rw [run_cons, ih (fun l hl => settles l (List.mem_cons_of_mem _ hl)) bounded]
    rcases step_db_cases (.settle i lost) trivial σ with same | ⟨j, p, r, -, hp, he⟩
    · exact same
    · exact exec_select (selects p (List.mem_of_getElem? hp)).1 he

/-- A statement whose callbacks only select is completed once or not at all. -/
theorem waiting_run_db {c : Ctx} {s : Stmt} {k : Option s.Reply → Prog}
    (later : ∀ r, (k r).Issues (fun s => s.isSelect = true)) {ls : List (Label P)}
    (settles : Settles ls) (w : World P) :
    (run (server P) ls ⟨w, [⟨c, s, k⟩]⟩).world.db = w.db ∨
      ∃ r, exec P.collate s w.db =
        some (r, (run (server P) ls ⟨w, [⟨c, s, k⟩]⟩).world.db) := by
  induction ls with
  | nil => exact Or.inl rfl
  | cons l ls ih =>
    have settles' : Settles ls := fun l hl => settles l (List.mem_cons_of_mem _ hl)
    have quiet : ∀ r w', (run (server P) ls (enter (server P) c (k r) ⟨w', []⟩)).world.db =
        w'.db := fun r w' =>
      (selects_run_db settles' (enter_bounded _ _ _ (later r)
        (fun _ hp => absurd hp List.not_mem_nil))).trans (enter_db _ _ _)
    obtain ⟨i, lost, rfl⟩ := settles l List.mem_cons_self
    rw [run_cons]
    simp only [step]
    rcases server_settle_cases i lost ⟨w, [⟨c, s, k⟩]⟩ with same | ⟨p, hp, outcome⟩
    · rw [same]
      exact ih settles'
    cases i with
    | succ i => cases hp
    | zero =>
      cases hp
      rcases outcome with ⟨hs, -⟩ | ⟨r, db, -, he, hs⟩
      · rw [hs]
        exact Or.inl (quiet none _)
      · rw [hs]
        refine Or.inr ⟨r, ?_⟩
        exact (quiet (some r) (w.complete c s r db)).symm ▸ he

theorem single_write {w : World P} {q : Request} {s : Stmt} {k : Option s.Reply → Prog}
    (single : handler P (w.context q) = .issue s k .done)
    (later : ∀ r, (k r).Issues (fun s => s.isSelect = true)) {ls : List (Label P)}
    (settles : Settles ls) :
    (run (server P) (.arrive q :: ls) ⟨w, []⟩).world.db = w.db ∨
      ∃ r, exec P.collate s w.db =
        some (r, (run (server P) (.arrive q :: ls) ⟨w, []⟩).world.db) := by
  rw [run_cons, arrive_eq, single]
  exact waiting_run_db later settles w.next

/-- What is in flight was sent by an admitted request's handler. -/
def Sent (admitted : Request → Prop) (σ : Config P) : Prop :=
  Bounded (fun c s => admitted c.req ∧ Sends P c s) σ

theorem step_sent {admitted : Request → Prop} (l : Label P)
    (arrives : ∀ q, l = .arrive q → admitted q) (σ : Config P) (h : Sent admitted σ) :
    Sent admitted (step (server P) l σ) := by
  cases l with
  | arrive q =>
    rw [arrive_eq]
    exact enter_bounded _ _ _ ((handler_issues P _).mono fun s hs => ⟨arrives q rfl, hs⟩) h
  | settle i lost => exact settle_bounded i lost σ h
  | disturb d => exact h

theorem startUp_sent (admitted : Request → Prop) : Sent admitted (startUp P) :=
  fun _ hp => absurd hp List.not_mem_nil

def Event.ctx : Event → Ctx
  | .completed c _ _ => c
  | .failed c _ => c
  | .answered c _ _ => c
  | .compared c _ => c

/-- Nothing carries the number of a request that has not arrived. -/
structure Fresh (σ : Config P) : Prop where
  pending : ∀ p ∈ σ.pending, p.ctx.rid < σ.world.nextReq
  gathered : ∀ rid, σ.world.nextReq ≤ rid → σ.world.gathered rid = []
  logged : ∀ e ∈ σ.world.log, e.ctx.rid < σ.world.nextReq

theorem Fresh.answered {σ : Config P} (fresh : Fresh σ) {rid : Nat}
    (new : σ.world.nextReq ≤ rid) : σ.world.log.any (Event.answers rid) = false := by
  rw [List.any_eq_false]
  intro e he answers
  have old := fresh.logged e he
  cases e with
  | answered c a u =>
    have hc : c.rid = rid := by simpa [Event.answers] using answers
    simp only [Event.ctx] at old
    omega
  | _ => simp [Event.answers] at answers

/-- A request with one statement that is answered by what the statement finds. -/
theorem Fresh.serve_answered {σ : Config P} (fresh : Fresh σ) {q : Request} {s : Stmt}
    {answer : s.Reply → Answer} {user : Option SessionUser} {r : s.Reply}
    {db : Database P.collate}
    (single : handler P (σ.world.context q) =
      .issue s (Prog.thenRun fun r => Prog.send (answer r) user) .done)
    (completes : exec P.collate s σ.world.db = some (r, db)) :
    .answered (σ.world.context q) (answer r) user ∈
      (run (server P) [.arrive q, .settle σ.pending.length false] σ).world.log := by
  have unanswered := fresh.answered (Nat.le_refl σ.world.nextReq)
  rw [serve_single single completes]
  simp only [Prog.thenRun]
  rw [enter_send_open]
  · exact List.mem_append_right _ (List.mem_singleton_self _)
  · simpa [World.complete, World.next, World.context, Event.answers] using unanswered

/-- The actions that end the response. -/
def Act.ends : Act → Bool
  | .send _ _ => true
  | .sendGathered _ => true
  | _ => false

/-- What an action adds to the log is the doing of its own request, and no statement. -/
theorem perform_log (c : Ctx) (a : Act) (w : World P) :
    (World.perform c a w).2.log = w.log ∨ ∃ e : Event, e.ctx = c ∧
      (∀ c' s r, e ≠ .completed c' s r) ∧ (World.perform c a w).2.log = w.log ++ [e] := by
  have sends : ∀ answer user, (w.answer c answer user).2.log = w.log ∨ ∃ e : Event, e.ctx = c ∧
      (∀ c' s r, e ≠ .completed c' s r) ∧ (w.answer c answer user).2.log = w.log ++ [e] := by
    intro answer user
    unfold World.answer
    split
    · exact Or.inl rfl
    · exact Or.inr ⟨.answered c answer user, rfl, fun _ _ _ h => Event.noConfusion h, rfl⟩
  cases a with
  | send answer user => exact sends answer user
  | sendGathered user => exact sends _ user
  | compareSync hash =>
    exact Or.inr ⟨.compared c hash, rfl, fun _ _ _ h => Event.noConfusion h, rfl⟩
  | push entry total => exact Or.inl rfl

/-- The log only grows, and by what the request does itself. -/
theorem enter_events (c : Ctx) (prog : Prog) (σ : Config P) :
    ∃ new, (enter (server P) c prog σ).world.log = σ.world.log ++ new ∧ ∀ e ∈ new, e.ctx = c := by
  induction prog generalizing σ with
  | done => exact ⟨[], by simp [enter]⟩
  | throw => exact ⟨[], by simp [enter]⟩
  | issue s k rest _ ih => exact ih ⟨σ.world, σ.pending ++ [⟨c, s, k⟩]⟩
  | act a k ih =>
    obtain ⟨new, hn, own⟩ := ih _ ⟨((server P).perform c a σ.world).2, σ.pending⟩
    rcases perform_log c a σ.world with hl | ⟨e, hc, -, hl⟩
    · exact ⟨new, hn.trans (congrArg (· ++ new) hl), own⟩
    · refine ⟨e :: new, hn.trans ?_, List.forall_mem_cons.mpr ⟨hc, own⟩⟩
      exact (congrArg (· ++ new) hl).trans (List.append_assoc _ _ _)

theorem enter_log (c : Ctx) (prog : Prog) (σ : Config P) :
    σ.world.log <+: (enter (server P) c prog σ).world.log := by
  obtain ⟨new, hn, -⟩ := enter_events c prog σ
  exact ⟨new, hn.symm⟩

theorem step_log (l : Label P) (σ : Config P) :
    σ.world.log <+: (step (server P) l σ).world.log := by
  cases l with
  | arrive q => exact enter_log _ _ ⟨σ.world.next, σ.pending⟩
  | disturb d => exact List.prefix_rfl
  | settle i lost =>
    simp only [step]
    rcases server_settle_cases i lost σ with same | ⟨p, -, ⟨hs, -⟩ | ⟨r, db, -, -, hs⟩⟩
    · rw [same]
    · rw [hs]
      exact (List.prefix_append _ _).trans (enter_log _ _ ⟨σ.world.fail p.ctx p.stmt, _⟩)
    · rw [hs]
      exact (List.prefix_append _ _).trans (enter_log _ _ ⟨σ.world.complete p.ctx p.stmt r db, _⟩)

/-- An action completes no statement. -/
theorem perform_completed {c c' : Ctx} {a : Act} {w : World P} {s : Stmt} {r : s.Reply} :
    .completed c' s r ∈ (World.perform c a w).2.log ↔ .completed c' s r ∈ w.log := by
  rcases perform_log c a w with hl | ⟨e, -, other, hl⟩
  · rw [hl]
  · rw [hl, List.mem_append, List.mem_singleton]
    exact or_iff_left fun h => other c' s r h.symm

theorem perform_gathered (c : Ctx) (a : Act) (w : World P) {rid : Nat} (other : rid ≠ c.rid) :
    (World.perform c a w).2.gathered rid = w.gathered rid := by
  have sends : ∀ answer user, (w.answer c answer user).2.gathered = w.gathered := by
    intro answer user
    unfold World.answer
    split <;> rfl
  cases a with
  | send answer user => exact congrFun (sends answer user) rid
  | sendGathered user => exact congrFun (sends _ user) rid
  | compareSync hash => rfl
  | push entry total => exact Function.update_of_ne other _ _

theorem enter_fresh (c : Ctx) (prog : Prog) (σ : Config P) (old : c.rid < σ.world.nextReq)
    (fresh : Fresh σ) : Fresh (enter (server P) c prog σ) := by
  induction prog generalizing σ with
  | done => exact fresh
  | throw => exact fresh
  | issue s k rest _ ih =>
    refine ih ⟨σ.world, σ.pending ++ [⟨c, s, k⟩]⟩ old ⟨?_, fresh.gathered, fresh.logged⟩
    intro p hp
    rcases List.mem_append.mp hp with hp | hp
    · exact fresh.pending p hp
    · rw [List.mem_singleton.mp hp]
      exact old
  | act a k ih =>
    have same : ((server P).perform c a σ.world).2.nextReq = σ.world.nextReq :=
      perform_nextReq c a σ.world
    refine ih _ ⟨_, σ.pending⟩ (by rw [same]; exact old) ⟨?_, fun rid h => ?_, fun e he => ?_⟩
    · rw [same]
      exact fresh.pending
    · rw [same] at h
      exact (perform_gathered c a σ.world (by omega)).trans (fresh.gathered rid h)
    · rw [same]
      rcases perform_log c a σ.world with hl | ⟨e', hc, -, hl⟩
      · exact fresh.logged e (hl ▸ he)
      · rcases List.mem_append.mp (hl ▸ he) with he | he
        · exact fresh.logged e he
        · rw [List.mem_singleton.mp he, hc]
          exact old

theorem step_fresh (l : Label P) (σ : Config P) (fresh : Fresh σ) :
    Fresh (step (server P) l σ) := by
  cases l with
  | arrive q =>
    refine enter_fresh _ _ _ (Nat.lt_succ_self _) ⟨?_, ?_, ?_⟩
    · exact fun p hp => Nat.lt_succ_of_lt (fresh.pending p hp)
    · exact fun rid h => fresh.gathered rid (Nat.le_of_succ_le h)
    · exact fun e he => Nat.lt_succ_of_lt (fresh.logged e he)
  | disturb d => exact ⟨fresh.pending, fresh.gathered, fresh.logged⟩
  | settle i lost =>
    simp only [step]
    rcases server_settle_cases i lost σ with same | ⟨p, hp, outcome⟩
    · rw [same]
      exact fresh
    have old := fresh.pending p (List.mem_of_getElem? hp)
    have others : ∀ q ∈ σ.pending.eraseIdx i, q.ctx.rid < σ.world.nextReq :=
      fun q hq => fresh.pending q (List.mem_of_mem_eraseIdx hq)
    have kept : ∀ e' : Event, e'.ctx = p.ctx → ∀ e ∈ σ.world.log ++ [e'],
        e.ctx.rid < σ.world.nextReq := by
      intro e' hc e he
      rcases List.mem_append.mp he with he | he
      · exact fresh.logged e he
      · rw [List.mem_singleton.mp he, hc]
        exact old
    rcases outcome with ⟨hs, -⟩ | ⟨r, db, -, -, hs⟩
    · rw [hs]
      exact enter_fresh _ _ _ old ⟨others, fresh.gathered, kept _ rfl⟩
    · rw [hs]
      exact enter_fresh _ _ _ old ⟨others, fresh.gathered, kept _ rfl⟩

theorem startUp_fresh : Fresh (startUp P) :=
  ⟨fun _ hp => absurd hp List.not_mem_nil, fun _ _ => rfl, fun _ he => absurd he List.not_mem_nil⟩

theorem run_fresh (ls : List (Label P)) (σ : Config P) (fresh : Fresh σ) :
    Fresh (run (server P) ls σ) :=
  run_invariant _ Fresh (fun σ l _ h => step_fresh l σ h)
    (along_of_forall (fun _ => True) (fun _ _ => trivial) σ) fresh

theorem Reachable.fresh {σ : Config P} (reachable : Reachable P σ) : Fresh σ := by
  obtain ⟨ls, -, rfl⟩ := reachable
  exact run_fresh ls _ startUp_fresh

end OneRoof
