import OneRoof.Identity

/-!
# The log tells what the tables hold

Every completed statement was executed at a moment of the run, and between two of them
nothing touches the tables. So when an abstract state is kept up to date with the completed
statements, and each statement acts on the tables as it does on that state, the tables show at
any time what the log makes of it, and every statement found them so when it was executed.
-/

namespace OneRoof

open Sql Async

variable {P : Platform}

section Moments

/-- Nothing has completed. -/
def Quiet (new : List Event) : Prop := ∀ e ∈ new, ∀ c s r, e ≠ .completed c s r

/-- What a handler does itself completes no statement. -/
theorem enter_quiet (c : Ctx) (prog : Prog) (σ : Config P) :
    ∃ new, (enter (server P) c prog σ).world.log = σ.world.log ++ new ∧ Quiet new := by
  induction prog generalizing σ with
  | done => exact ⟨[], (List.append_nil _).symm, fun _ mem => absurd mem List.not_mem_nil⟩
  | throw => exact ⟨[], (List.append_nil _).symm, fun _ mem => absurd mem List.not_mem_nil⟩
  | issue s k rest _ ih => exact ih ⟨σ.world, σ.pending ++ [⟨c, s, k⟩]⟩
  | act a k ih =>
    obtain ⟨new, grown, quiet⟩ := ih _ ⟨((server P).perform c a σ.world).2, σ.pending⟩
    rcases perform_log c a σ.world with same | ⟨e, -, other, logged⟩
    · exact ⟨new, grown.trans (congrArg (· ++ new) same), quiet⟩
    · refine ⟨e :: new, grown.trans ?_, List.forall_mem_cons.mpr ⟨other, quiet⟩⟩
      exact (congrArg (· ++ new) logged).trans (List.append_assoc _ _ _)

/-- One step completes no statement and leaves the tables, or it completes one that is in
flight, and nothing else. -/
theorem step_moment (l : Label P) (own : Label.own P l) (σ : Config P) :
    (∃ new, Quiet new ∧ (step (server P) l σ).world.log = σ.world.log ++ new ∧
      (step (server P) l σ).world.db = σ.world.db) ∨
    ∃ p ∈ σ.pending, ∃ r new, Quiet new ∧
      exec P.collate p.stmt σ.world.db = some (r, (step (server P) l σ).world.db) ∧
      (step (server P) l σ).world.log = σ.world.log ++ .completed p.ctx p.stmt r :: new := by
  cases l with
  | disturb db => exact absurd own id
  | arrive q =>
    obtain ⟨new, grown, quiet⟩ := enter_quiet (σ.world.context q) (handler P (σ.world.context q))
      ⟨σ.world.next, σ.pending⟩
    exact Or.inl ⟨new, quiet, grown, enter_db _ _ _⟩
  | settle i lost =>
    simp only [step]
    rcases server_settle_cases i lost σ with same | ⟨p, hp, ⟨hs, -⟩ | ⟨r, db, -, he, hs⟩⟩
    · rw [same]
      exact Or.inl ⟨[], fun _ mem => absurd mem List.not_mem_nil, (List.append_nil _).symm, rfl⟩
    · obtain ⟨new, grown, quiet⟩ := enter_quiet p.ctx (p.k none)
        ⟨σ.world.fail p.ctx p.stmt, σ.pending.eraseIdx i⟩
      rw [hs]
      refine Or.inl ⟨.failed p.ctx p.stmt :: new, ?_, ?_, enter_db _ _ _⟩
      · exact List.forall_mem_cons.mpr ⟨fun _ _ _ h => Event.noConfusion h, quiet⟩
      · exact grown.trans (List.append_assoc _ _ _)
    · obtain ⟨new, grown, quiet⟩ := enter_quiet p.ctx (p.k (some r))
        ⟨σ.world.complete p.ctx p.stmt r db, σ.pending.eraseIdx i⟩
      rw [hs]
      refine Or.inr ⟨p, List.mem_of_getElem? hp, r, new, quiet, ?_, ?_⟩
      · rw [he, enter_db]
        rfl
      · exact grown.trans (List.append_assoc _ _ _)

theorem run_log (ls : List (Label P)) (σ : Config P) :
    σ.world.log <+: (run (server P) ls σ).world.log := by
  induction ls generalizing σ with
  | nil => exact List.prefix_rfl
  | cons l ls ih => exact (step_log l σ).trans (ih _)

/-- A statement stands in a log of which only the front can have completed anything. -/
theorem completed_in_front {log front back rest : List Event} {c : Ctx} {s : Stmt} {r : s.Reply}
    (quiet : Quiet back) (split : log ++ back = front ++ .completed c s r :: rest) :
    ∃ rest', log = front ++ .completed c s r :: rest' := by
  rcases List.append_eq_append_iff.mp split with ⟨m, -, tail⟩ | ⟨m, whole, tail⟩
  · have mem : .completed c s r ∈ back := by
      rw [tail]
      exact List.mem_append_right _ List.mem_cons_self
    exact absurd rfl (quiet _ mem c s r)
  · cases m with
    | nil =>
      rw [List.nil_append] at tail
      have mem : .completed c s r ∈ back := by
        rw [← tail]
        exact List.mem_cons_self
      exact absurd rfl (quiet _ mem c s r)
    | cons e m =>
      obtain ⟨rfl, -⟩ := List.cons.inj tail
      exact ⟨m, whole⟩

/-- A log around one of its events. -/
theorem split_at {log : List Event} {i : Nat} {test : Event → Bool}
    (found : log[i]?.any test = true) :
    ∃ e, log = log.take i ++ e :: log.drop (i + 1) ∧ test e = true := by
  obtain ⟨e, stands, passes⟩ := (Option.any_eq_true _ _).mp found
  obtain ⟨short, rfl⟩ := List.getElem?_eq_some_iff.mp stands
  refine ⟨log[i], ?_, passes⟩
  rw [← List.drop_eq_getElem_cons short, List.take_append_drop]

/-- One of the steps of a run executes this statement, and the log is then this long. -/
def ExecutedIn (P : Platform) (ls : List (Label P)) (σ : Config P) (front : List Event) (c : Ctx)
    (s : Stmt) (r : s.Reply) : Prop :=
  ∃ before l after, ls = before ++ l :: after ∧
    (run (server P) before σ).world.log = front ∧
    (∃ k, ⟨c, s, k⟩ ∈ (run (server P) before σ).pending) ∧
    exec P.collate s (run (server P) before σ).world.db =
      some (r, (run (server P) (before ++ [l]) σ).world.db)

theorem ExecutedIn.snoc {ls : List (Label P)} {σ : Config P} {front : List Event} {c : Ctx}
    {s : Stmt} {r : s.Reply} (executed : ExecutedIn P ls σ front c s r) (l : Label P) :
    ExecutedIn P (ls ++ [l]) σ front c s r := by
  obtain ⟨before, l', after, rfl, found⟩ := executed
  exact ⟨before, l', after ++ [l], by rw [List.append_assoc, List.cons_append], found⟩

/-- Whatever a log shows as completed was executed at a moment of the run. -/
theorem executedIn_of_logged {ls : List (Label P)} (own : ∀ l ∈ ls, Label.own P l) {σ : Config P}
    (empty : σ.world.log = []) {front rest : List Event} {c : Ctx} {s : Stmt} {r : s.Reply}
    (logged : (run (server P) ls σ).world.log = front ++ .completed c s r :: rest) :
    ExecutedIn P ls σ front c s r := by
  induction ls using List.reverseRecOn generalizing rest with
  | nil => simp [empty] at logged
  | append_singleton ls l ih =>
    have own' : ∀ l ∈ ls, Label.own P l := fun l mem => own l (List.mem_append_left _ mem)
    have stepped : run (server P) (ls ++ [l]) σ =
        step (server P) l (run (server P) ls σ) := run_append _ _ _ _
    rw [stepped] at logged
    rcases step_moment l (own l (List.mem_append_right _ (List.mem_singleton_self l)))
      (run (server P) ls σ) with ⟨new, quiet, grown, -⟩ | ⟨p, flies, r', new, quiet, he, grown⟩
    · obtain ⟨rest', found⟩ := completed_in_front quiet (grown.symm.trans logged)
      exact (ih own' found).snoc l
    · have split : (run (server P) ls σ).world.log ++ [.completed p.ctx p.stmt r'] ++ new =
          front ++ .completed c s r :: rest := by
        rw [List.append_assoc]
        exact grown.symm.trans logged
      obtain ⟨rest', found⟩ := completed_in_front quiet split
      rcases List.eq_nil_or_concat rest' with rfl | ⟨most, last, rfl⟩
      · obtain ⟨same, event⟩ := List.append_inj' found rfl
        obtain ⟨c', s', k⟩ := p
        cases event
        exact ⟨ls, l, [], rfl, same, ⟨k, flies⟩, stepped ▸ he⟩
      · rw [List.concat_eq_append, ← List.cons_append, ← List.append_assoc] at found
        exact (ih own' (List.append_inj' found rfl).1).snoc l

end Moments

section AllTold

/-- Something in flight or in the log belongs to this request. -/
def Occurs (c : Ctx) (σ : Config P) : Prop :=
  (∃ p ∈ σ.pending, p.ctx = c) ∨ ∃ e ∈ σ.world.log, e.ctx = c

/-- A number stands for one request. -/
def AllTold (σ : Config P) : Prop :=
  ∀ c c', Occurs c σ → Occurs c' σ → c.rid = c'.rid → c = c'

variable {σ : Config P} {c c' : Ctx}

theorem Occurs.old (fresh : Fresh σ) (occurs : Occurs c σ) : c.rid < σ.world.nextReq := by
  rcases occurs with ⟨p, flies, rfl⟩ | ⟨e, logged, rfl⟩
  · exact fresh.pending p flies
  · exact fresh.logged e logged

theorem occurs_enter {prog : Prog} (occurs : Occurs c' (enter (server P) c prog σ)) :
    c' = c ∨ Occurs c' σ := by
  rcases occurs with ⟨p, flies, rfl⟩ | ⟨e, logged, rfl⟩
  · rcases mem_enter flies with old | ⟨own, -⟩
    · exact Or.inr (Or.inl ⟨p, old, rfl⟩)
    · exact Or.inl own
  · obtain ⟨new, grown, own⟩ := enter_events c prog σ
    rw [grown] at logged
    rcases List.mem_append.mp logged with old | fresh
    · exact Or.inr (Or.inr ⟨e, old, rfl⟩)
    · exact Or.inl (own e fresh)

/-- What settles belongs to a request that is there already. -/
theorem occurs_settle {i : Nat} {lost : Bool} (occurs : Occurs c (settle (server P) i lost σ)) :
    Occurs c σ := by
  have left : ∀ {p : Pending Stmt Stmt.Reply Act Ctx} {prog : Prog} {w : World P} {e : Event},
      σ.pending[i]? = some p → w.log = σ.world.log ++ [e] → e.ctx = p.ctx →
      Occurs c (enter (server P) p.ctx prog ⟨w, σ.pending.eraseIdx i⟩) → Occurs c σ := by
    intro p prog w e waits logged own entered
    have there : Occurs p.ctx σ := Or.inl ⟨p, List.mem_of_getElem? waits, rfl⟩
    rcases occurs_enter entered with rfl | ⟨p', flies, rfl⟩ | ⟨e', mem, rfl⟩
    · exact there
    · exact Or.inl ⟨p', List.mem_of_mem_eraseIdx flies, rfl⟩
    · rcases List.mem_append.mp (logged ▸ mem) with old | new
      · exact Or.inr ⟨e', old, rfl⟩
      · rw [List.mem_singleton.mp new, own]
        exact there
  rcases server_settle_cases i lost σ with same | ⟨p, waits, ⟨hs, -⟩ | ⟨r, db, -, -, hs⟩⟩
  · exact same ▸ occurs
  · exact left waits rfl rfl (hs ▸ occurs)
  · exact left waits rfl rfl (hs ▸ occurs)

/-- Only an arrival makes a request occur. -/
theorem occurs_step {l : Label P} (occurs : Occurs c (step (server P) l σ)) :
    Occurs c σ ∨ ∃ q, l = .arrive q ∧ c = σ.world.context q := by
  cases l with
  | disturb db => exact Or.inl occurs
  | settle i lost => exact Or.inl (occurs_settle occurs)
  | arrive q =>
    rcases occurs_enter (σ := ⟨σ.world.next, σ.pending⟩) occurs with rfl | old
    · exact Or.inr ⟨q, rfl, rfl⟩
    · exact Or.inl old

theorem AllTold.step (told : AllTold σ) (fresh : Fresh σ) (l : Label P) :
    AllTold (step (server P) l σ) := by
  have late : ∀ c q, Occurs c σ → c.rid ≠ (σ.world.context q).rid :=
    fun c q occurs => Nat.ne_of_lt (occurs.old fresh)
  intro c c' occurs occurs' same
  rcases occurs_step occurs with old | ⟨q, rfl, rfl⟩
  · rcases occurs_step occurs' with old' | ⟨q, rfl, rfl⟩
    · exact told c c' old old' same
    · exact absurd same (late c q old)
  · rcases occurs_step occurs' with old' | ⟨q', same', rfl⟩
    · exact absurd same.symm (late c' q old')
    · cases same'
      rfl

/-- Whatever occurs has arrived, and was given what its session held then. -/
theorem occurs_arrived {ls : List (Label P)} (occurs : Occurs c (run (server P) ls (startUp P))) :
    ∃ before q after, ls = before ++ .arrive q :: after ∧
      c = (run (server P) before (startUp P)).world.context q := by
  induction ls using List.reverseRecOn with
  | nil =>
    rcases occurs with ⟨p, flies, -⟩ | ⟨e, logged, -⟩
    · exact absurd flies List.not_mem_nil
    · exact absurd logged List.not_mem_nil
  | append_singleton ls l ih =>
    rw [run_append, run_cons, run_nil] at occurs
    rcases occurs_step occurs with old | ⟨q, rfl, rfl⟩
    · obtain ⟨before, q, after, rfl, arrived⟩ := ih old
      exact ⟨before, q, after ++ [l], by rw [List.append_assoc, List.cons_append], arrived⟩
    · exact ⟨ls, q, [], rfl, rfl⟩

theorem run_told (ls : List (Label P)) : AllTold (run (server P) ls (startUp P)) := by
  have both : Fresh (run (server P) ls (startUp P)) ∧ AllTold (run (server P) ls (startUp P)) :=
    run_invariant _ (fun σ => Fresh σ ∧ AllTold σ)
      (fun σ l _ good => ⟨step_fresh l σ good.1, good.2.step good.1 l⟩)
      (along_of_forall (fun _ => True) (fun _ _ => trivial) _)
      ⟨startUp_fresh, by
        rintro c c' (⟨p, flies, -⟩ | ⟨e, logged, -⟩)
        · exact absurd flies List.not_mem_nil
        · exact absurd logged List.not_mem_nil⟩
  exact both.2

end AllTold

section Replay

variable {α : Type} (apply : Ctx → (s : Stmt) → s.Reply → α → α) (start : α)

/-- What the completed statements of a log make of a state, one after the other. -/
def replay (log : List Event) : α :=
  log.foldl (fun a e => match e with
    | .completed c s r => apply c s r a
    | _ => a) start

variable {apply start}

theorem replay_append (log log' : List Event) :
    replay apply start (log ++ log') = replay apply (replay apply start log) log' :=
  List.foldl_append

theorem replay_quiet {log : List Event} (quiet : Quiet log) : replay apply start log = start := by
  induction log with
  | nil => rfl
  | cons e log ih =>
    obtain ⟨other, quiet'⟩ := List.forall_mem_cons.mp quiet
    cases e with
    | completed c s r => exact absurd rfl (other c s r)
    | _ => exact ih quiet'

/-- The tables show an abstract state, and each statement that the handler of an admitted
request may send acts on the tables as it does on the abstract state. -/
structure Refines (P : Platform) (admitted : Request → Prop) (allowed : Ctx → Stmt → Prop)
    (apply : Ctx → (s : Stmt) → s.Reply → α → α) (start : α)
    (shows : Database P.collate → α → Prop) : Prop where
  start : shows (emptyDatabase P.collate) start
  issues : ∀ c, admitted c.req → (handler P c).Issues (allowed c)
  preserve : ∀ {c s r} {db db' : Database P.collate} {a}, allowed c s →
    exec P.collate s db = some (r, db') → shows db a → shows db' (apply c s r a)

/-- A step of the server itself; what arrives is admitted. -/
structure Admissible (P : Platform) (admitted : Request → Prop) (l : Label P) : Prop where
  own : Label.own P l
  asks : ∀ q, l = .arrive q → admitted q

theorem PlainLabel.admissible {l : Label P} (plain : PlainLabel P l) :
    Admissible P Request.Plain l :=
  ⟨plain.own, plain.plain⟩

theorem admissible_of_own {l : Label P} (own : Label.own P l) :
    Admissible P (fun _ => True) l :=
  ⟨own, fun _ _ => trivial⟩

/-- What stands in a field of the elements of a list is a scalar. -/
def Request.ListsScalars (q : Request) (key field : String) : Prop :=
  ∀ list ∈ (q.body.get key).loop, ∀ o ∈ list.items, ∀ v ∈ o.prop field, v.isScalar = true

instance (q : Request) (key field : String) : Decidable (q.ListsScalars key field) :=
  inferInstanceAs (Decidable (∀ list ∈ (q.body.get key).loop, ∀ o ∈ list.items, _))

/-- A check that is enough for a step to be admissible. -/
def Label.passes (check : Request → Bool) : Label P → Bool
  | .arrive q => check q
  | .settle _ _ => true
  | .disturb _ => false

theorem admissible_of_passes {admitted : Request → Prop} {check : Request → Bool}
    (enough : ∀ q, check q = true → admitted q) {ls : List (Label P)}
    (passes : ls.all (Label.passes check) = true) : ∀ l ∈ ls, Admissible P admitted l := by
  intro l mem
  have passed := List.all_eq_true.mp passes l mem
  cases l with
  | arrive q =>
    refine ⟨trivial, ?_⟩
    rintro _ ⟨⟩
    exact enough q passed
  | settle i lost => exact ⟨trivial, fun _ h => by cases h⟩
  | disturb db => cases passed

variable {admitted : Request → Prop} {allowed : Ctx → Stmt → Prop}
variable {shows : Database P.collate → α → Prop}

/-- What is in flight is allowed when whatever the handlers issue is. -/
theorem run_bounded (issues : ∀ c, admitted c.req → (handler P c).Issues (allowed c))
    {ls : List (Label P)} (labels : ∀ l ∈ ls, Admissible P admitted l) :
    Bounded allowed (run (server P) ls (startUp P)) := by
  refine run_invariant _ (Bounded allowed) (fun σ l label bounded => ?_)
    (along_of_forall (Admissible P admitted) labels _) fun _ flies => absurd flies List.not_mem_nil
  cases l with
  | arrive q => exact enter_bounded _ _ _ (issues _ (label.asks q rfl)) bounded
  | settle i lost => exact settle_bounded i lost σ bounded
  | disturb db => exact absurd label.own id

theorem run_sends {ls : List (Label P)} (own : ∀ l ∈ ls, Label.own P l) :
    Bounded (Sends P) (run (server P) ls (startUp P)) :=
  have labels : ∀ l ∈ ls, Admissible P (fun _ => True) l :=
    fun l mem => admissible_of_own (own l mem)
  run_bounded (fun c _ => handler_issues P c) labels

/-- Whatever is in flight or in the log belongs to an admitted request. -/
theorem occurs_admitted {ls : List (Label P)} (labels : ∀ l ∈ ls, Admissible P admitted l) {c : Ctx}
    (occurs : Occurs c (run (server P) ls (startUp P))) : admitted c.req := by
  obtain ⟨before, q, after, rfl, rfl⟩ := occurs_arrived occurs
  exact (labels _ (List.mem_append_right _ List.mem_cons_self)).asks q rfl

/-- After every run the tables show what its log makes of the abstract state. -/
theorem Refines.replayed (refines : Refines P admitted allowed apply start shows)
    {ls : List (Label P)} (labels : ∀ l ∈ ls, Admissible P admitted l) :
    shows (run (server P) ls (startUp P)).world.db
      (replay apply start (run (server P) ls (startUp P)).world.log) := by
  induction ls using List.reverseRecOn with
  | nil => exact refines.start
  | append_singleton ls l ih =>
    have labels' : ∀ l ∈ ls, Admissible P admitted l :=
      fun l mem => labels l (List.mem_append_left _ mem)
    have shown := ih labels'
    have label := labels l (List.mem_append_right _ (List.mem_singleton_self l))
    rw [run_append, run_cons, run_nil]
    rcases step_moment l label.own (run (server P) ls (startUp P)) with
      ⟨new, quiet, grown, same⟩ | ⟨p, flies, r, new, quiet, he, grown⟩
    · rw [grown, same, replay_append, replay_quiet quiet]
      exact shown
    · have allows := (run_bounded refines.issues labels' p flies).1
      rw [grown, replay_append]
      have rest : ∀ a : α, replay apply a new = a := fun _ => replay_quiet quiet
      change shows _ (replay apply (apply p.ctx p.stmt r _) new)
      rw [rest]
      exact refines.preserve allows he shown

/-- Every completed statement was allowed, and found the tables as the log before it shows
them. -/
theorem Refines.answered (refines : Refines P admitted allowed apply start shows)
    {ls : List (Label P)} (labels : ∀ l ∈ ls, Admissible P admitted l) {front rest : List Event}
    {c : Ctx} {s : Stmt} {r : s.Reply} (logged : (run (server P) ls (startUp P)).world.log =
      front ++ .completed c s r :: rest) :
    allowed c s ∧ ∃ db db', shows db (replay apply start front) ∧
      exec P.collate s db = some (r, db') := by
  obtain ⟨before, l, after, rfl, rfl, ⟨k, flies⟩, he⟩ :=
    executedIn_of_logged (fun l mem => (labels l mem).own) rfl logged
  have labels' : ∀ l ∈ before, Admissible P admitted l :=
    fun l mem => labels l (List.mem_append_left _ mem)
  exact ⟨(run_bounded refines.issues labels' _ flies).1, _, _, refines.replayed labels', he⟩

/-- Fewer requests and fewer statements. -/
theorem Refines.narrow {admitted' : Request → Prop} {allowed' : Ctx → Stmt → Prop}
    (refines : Refines P admitted allowed apply start shows)
    (issues : ∀ c, admitted' c.req → (handler P c).Issues (allowed' c))
    (allows : ∀ c s, allowed' c s → allowed c s) :
    Refines P admitted' allowed' apply start shows where
  start := refines.start
  issues := issues
  preserve := fun allowed' he shown => refines.preserve (allows _ _ allowed') he shown

variable {β : Type} {apply' : Ctx → (s : Stmt) → s.Reply → β → β} {start' : β}
variable {shows' : Database P.collate → β → Prop}

/-- Two abstract states of the same tables. -/
theorem Refines.both (first : Refines P admitted allowed apply start shows)
    (second : Refines P admitted allowed apply' start' shows') :
    Refines P admitted allowed (fun c s r a => (apply c s r a.1, apply' c s r a.2))
      (start, start') (fun db a => shows db a.1 ∧ shows' db a.2) where
  start := ⟨first.start, second.start⟩
  issues := first.issues
  preserve := fun allowed he shown =>
    ⟨first.preserve allowed he shown.1, second.preserve allowed he shown.2⟩

theorem replay_both (log : List Event) :
    replay (fun c s r a => (apply c s r a.1, apply' c s r a.2)) (start, start') log =
      (replay apply start log, replay apply' start' log) := by
  induction log using List.reverseRecOn with
  | nil => rfl
  | append_singleton log e ih =>
    rw [replay_append, replay_append, replay_append, ih]
    cases e <;> rfl

end Replay

end OneRoof
