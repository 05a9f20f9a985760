import OneRoof.Lib.Discipline
import OneRoof.Runs

/-!
# Safety of the handlers' building blocks

How the rely/guarantee rule applies to the shapes that the handlers are made of:
a query with its `then` and `catch`, a statement nobody waits for, a loop of
them, the two copies of a user look-up, and the end of the response.
-/

namespace OneRoof

open Sql Async Async.Prog Prog

variable {P : Platform} {𝒟 : Discipline (server P)} {c : Ctx} {w : World P}

/-- Where actions are free and statements are judged alone, a program is safe when
everything it can issue is allowed. -/
theorem issues_safe {φ : Stmt → Prop} {prog : Prog} (issues : prog.Issues φ)
    (allowed : ∀ s w, φ s → 𝒟.Allowed c s w) (permit : ∀ a w, 𝒟.Permit c a w) (w : World P) :
    𝒟.Safe c prog w := by
  induction prog generalizing w with
  | done => trivial
  | throw => trivial
  | issue s k rest ihk ih =>
    exact Discipline.Safe.issue (allowed s w issues.1) (ih issues.2.2 w)
      (fun w' _ _ => ihk _ (issues.2.1 _) w') fun _ _ w'' _ _ _ _ _ => ihk _ (issues.2.1 _) w''
  | act a k ih => exact ⟨permit a w, ih _ (issues _) _⟩

/-- A program is safe when what it can issue and perform is allowed from here on. -/
theorem acts_safe {φ : Stmt → Prop} {ψ : Act → Prop} {prog : Prog} (issues : prog.Issues φ)
    (acts : prog.Acts ψ) (good : 𝒟.Good w)
    (allowed : ∀ s w', 𝒟.Le w w' → φ s → 𝒟.Allowed c s w')
    (permit : ∀ a w', 𝒟.Le w w' → ψ a → 𝒟.Permit c a w') : 𝒟.Safe c prog w := by
  induction prog generalizing w with
  | done => trivial
  | throw => trivial
  | issue s k rest ihk ih =>
    have later : ∀ o w', 𝒟.Le w w' → 𝒟.Good w' → 𝒟.Safe c (k o) w' := fun o w' le good' =>
      ihk o (issues.2.1 o) (acts.1 o) good' (fun s v hv => allowed s v (𝒟.trans le hv))
        fun a v hv => permit a v (𝒟.trans le hv)
    exact Discipline.Safe.issue (allowed s w (𝒟.refl w) issues.1)
      (ih issues.2.2 acts.2 good allowed permit) (later none)
      fun _ r w'' _ _ _ le good' => later (some r) w'' le good'
  | act a k ih =>
    have permitted := permit a w (𝒟.refl w) acts.1
    obtain ⟨good', le⟩ := 𝒟.perform_good good permitted
    exact ⟨permitted, ih _ (issues _) (acts.2 _) good'
      (fun s v hv => allowed s v (𝒟.trans le hv)) fun a v hv => permit a v (𝒟.trans le hv)⟩

theorem safe_done : 𝒟.Safe c .done w := trivial

theorem safe_send {answer : Answer} {user : Option SessionUser}
    (permit : 𝒟.Permit c (.send answer user) w) : 𝒟.Safe c (send answer user) w := by
  refine ⟨permit, ?_⟩
  dsimp only
  split <;> trivial

theorem safe_start {s : Stmt} {rest : Prog} (allowed : 𝒟.Allowed c s w)
    (rests : 𝒟.Safe c rest w) : 𝒟.Safe c (start s rest) w :=
  Discipline.Safe.issue allowed rests (fun _ _ _ => trivial) fun _ _ _ _ _ _ _ _ => trivial

/-- A query is judged by what it finds in a later good world. -/
theorem safe_query {s : Stmt} {k : Option s.Reply → Prog} {rest : Prog}
    (allowed : 𝒟.Allowed c s w) (rests : 𝒟.Safe c rest w)
    (fails : ∀ w', 𝒟.Le w w' → 𝒟.Good w' → 𝒟.Safe c (k none) w')
    (completes : ∀ w' r db, 𝒟.Le w w' → 𝒟.Good w' → exec P.collate s w'.db = some (r, db) →
      𝒟.Le w (w'.complete c s r db) → 𝒟.Good (w'.complete c s r db) →
      𝒟.Safe c (k (some r)) (w'.complete c s r db)) :
    𝒟.Safe c (.issue s k rest) w := by
  refine Discipline.Safe.issue allowed rests fails fun w' r w'' later good he later' good' => ?_
  obtain ⟨⟨r', db⟩, hx, hw⟩ := Option.map_eq_some_iff.mp he
  cases hw
  exact completes w' _ db later good hx later' good'

theorem safe_thenRun {s : Stmt} {f : s.Reply → Prog} (allowed : 𝒟.Allowed c s w)
    (completes : ∀ w' r db, 𝒟.Le w w' → 𝒟.Good w' → exec P.collate s w'.db = some (r, db) →
      𝒟.Le w (w'.complete c s r db) → 𝒟.Good (w'.complete c s r db) →
      𝒟.Safe c (f r) (w'.complete c s r db)) :
    𝒟.Safe c (query s (thenRun f)) w :=
  safe_query allowed trivial (fun _ _ _ => trivial) completes

theorem safe_thenCatch {s : Stmt} {f : s.Reply → Prog} {h : Prog} (allowed : 𝒟.Allowed c s w)
    (caught : ∀ w', 𝒟.Le w w' → 𝒟.Good w' → 𝒟.Safe c h w')
    (completes : ∀ w' r db, 𝒟.Le w w' → 𝒟.Good w' → exec P.collate s w'.db = some (r, db) →
      𝒟.Le w (w'.complete c s r db) → 𝒟.Good (w'.complete c s r db) →
      𝒟.Safe c (f r) (w'.complete c s r db)) :
    𝒟.Safe c (query s (thenCatch f h)) w :=
  safe_query allowed trivial caught fun w' r db later good he later' good' =>
    (completes w' r db later good he later' good').recover good' fun w'' later'' =>
      caught w'' (𝒟.trans later' later'')

theorem safe_attempt {α : Type} {v : Option α} {f : α → Prog}
    (safe : ∀ a, v = some a → 𝒟.Safe c (f a) w) : 𝒟.Safe c (attempt v f) w := by
  cases v with
  | none => trivial
  | some a => exact safe a rfl

theorem safe_withUser {user : Option SessionUser} {f : SessionUser → Prog}
    (safe : ∀ u, user = some u → 𝒟.Safe c (f u) w) : 𝒟.Safe c (withUser user f) w :=
  safe_attempt safe

theorem safe_startEach {f : JsVal → Option Stmt} {broken : Bool} {rest : Prog}
    (allowed : ∀ v s, f v = some s → 𝒟.Allowed c s w) (rests : 𝒟.Safe c rest w)
    (vs : List JsVal) : 𝒟.Safe c (startEach f broken rest vs) w := by
  induction vs with
  | nil =>
    cases broken with
    | true => trivial
    | false => exact rests
  | cons v vs ih => exact safe_attempt fun s hs => safe_start (allowed v s hs) ih

/-- What a look-up of a user hands on. -/
theorem safe_getUser {email : JsVal} {k : Option (List (Row UserCol)) → Prog}
    (allowed : 𝒟.Allowed c (.getUser email) w)
    (fails : ∀ w', 𝒟.Le w w' → 𝒟.Good w' → 𝒟.Safe c (k none) w')
    (completes : ∀ w' (rows : List (Row UserCol)) db, 𝒟.Le w w' → 𝒟.Good w' →
      exec P.collate (.getUser email) w'.db = some (rows, db) →
      𝒟.Le w (w'.complete c (.getUser email) rows db) →
      𝒟.Good (w'.complete c (.getUser email) rows db) →
      𝒟.Safe c (k (some rows)) (w'.complete c (.getUser email) rows db)) :
    𝒟.Safe c (bankGetUser email k) w :=
  safe_start allowed (safe_query allowed trivial fails completes)

theorem safe_getUserCatch {email : JsVal} {f : List (Row UserCol) → Prog} {h : Prog}
    (allowed : 𝒟.Allowed c (.getUser email) w)
    (caught : ∀ w', 𝒟.Le w w' → 𝒟.Good w' → 𝒟.Safe c h w')
    (completes : ∀ w' (rows : List (Row UserCol)) db, 𝒟.Le w w' → 𝒟.Good w' →
      exec P.collate (.getUser email) w'.db = some (rows, db) →
      𝒟.Le w (w'.complete c (.getUser email) rows db) →
      𝒟.Good (w'.complete c (.getUser email) rows db) →
      𝒟.Safe c (f rows) (w'.complete c (.getUser email) rows db)) :
    𝒟.Safe c (bankGetUser email (thenCatch f h)) w :=
  safe_getUser allowed caught fun w' rows db later good he later' good' =>
    (completes w' rows db later good he later' good').recover good' fun w'' later'' =>
      caught w'' (𝒟.trans later' later'')

/-- A loop that throws, with whatever was to follow it. -/
theorem safe_startEach_throws {f : JsVal → Option Stmt} {broken : Bool} {rest next : Prog}
    {vs : List JsVal} (allowed : ∀ v s, f v = some s → 𝒟.Allowed c s w)
    (throws : broken = true ∨ ∃ v ∈ vs, f v = none) :
    𝒟.Safe c ((startEach f broken rest vs).andThen next) w := by
  induction vs with
  | nil =>
    rcases throws with rfl | ⟨v, hv, -⟩
    · trivial
    · cases hv
  | cons v vs ih =>
    simp only [startEach]
    cases hf : f v with
    | none => trivial
    | some s =>
      refine safe_start (allowed v s hf) (ih ?_)
      rcases throws with h | ⟨v', hv', hn⟩
      · exact Or.inl h
      · rcases List.mem_cons.mp hv' with rfl | hv'
        · simp [hf] at hn
        · exact Or.inr ⟨v', hv', hn⟩

/-- A condition on the answers of a request, as a condition on its actions. -/
def Act.Answers (φ : Ctx → Answer → Option SessionUser → Prop) (c : Ctx) : Act → Prop
  | .send answer user => φ c answer user
  | .sendGathered user => ∀ entries, φ c (.json (.arr entries)) user
  | _ => True

/-- Every answer that is logged meets the condition. -/
def AnswersMeet (φ : Ctx → Answer → Option SessionUser → Prop) (w : World P) : Prop :=
  ∀ c answer user, .answered c answer user ∈ w.log → φ c answer user

theorem AnswersMeet.perform {φ : Ctx → Answer → Option SessionUser → Prop} {a : Act}
    (meet : AnswersMeet φ w) (answers : a.Answers φ c) : AnswersMeet φ (World.perform c a w).2 := by
  have ended : ∀ answer user, φ c answer user → AnswersMeet φ (w.answer c answer user).2 := by
    intro answer user meets c' answer' user' mem
    unfold World.answer at mem
    split at mem
    · exact meet c' answer' user' mem
    · rcases List.mem_append.mp mem with old | new
      · exact meet c' answer' user' old
      · cases List.mem_singleton.mp new
        exact meets
  cases a with
  | send answer user => exact ended answer user answers
  | sendGathered user => exact ended _ user (answers _)
  | push entry total => exact meet
  | compareSync hash =>
    intro c' answer' user' mem
    rcases List.mem_append.mp mem with old | new
    · exact meet c' answer' user' old
    · cases List.mem_singleton.mp new

/-- Answers are judged by the actions of the handlers alone. -/
def answering (P : Platform) (φ : Ctx → Answer → Option SessionUser → Prop) :
    Discipline (server P) where
  Good := AnswersMeet φ
  Le _ _ := True
  Allowed _ _ _ := True
  Permit c a _ := a.Answers φ c
  refl _ := trivial
  trans _ _ := trivial
  mono _ h := h
  exec_good := by
    intro c s w r w' good _ he
    obtain ⟨⟨r', db⟩, -, hw⟩ := Option.map_eq_some_iff.mp he
    cases hw
    refine ⟨fun c' answer user mem => ?_, trivial⟩
    rcases List.mem_append.mp mem with old | new
    · exact good c' answer user old
    · cases List.mem_singleton.mp new
  refuse_good := by
    intro c s w good
    refine ⟨fun c' answer user mem => ?_, trivial⟩
    rcases List.mem_append.mp mem with old | new
    · exact good c' answer user old
    · cases List.mem_singleton.mp new
  perform_good good answers := ⟨good.perform answers, trivial⟩

/-- What every handler observes when it answers holds of every answer of every run. -/
theorem Reachable.answers_meet {φ : Ctx → Answer → Option SessionUser → Prop} {σ : Config P}
    (reachable : Reachable P σ) (acts : ∀ c, (handler P c).Acts (Act.Answers φ c)) :
    AnswersMeet φ σ.world := by
  obtain ⟨ls, own, rfl⟩ := reachable
  refine (Discipline.run_holds (𝒟 := answering P φ) ls (fun l hl => ?_) _
    (Discipline.idle_holds fun _ _ _ h => absurd h List.not_mem_nil)).1.1
  cases l with
  | settle i lost => trivial
  | disturb db => exact absurd (own _ hl) id
  | arrive q =>
    intro w good
    exact ⟨good, trivial, acts_safe (issues_of_forall (φ := fun _ => True) (fun _ => trivial) _)
      (acts _) good (fun _ _ _ _ => trivial) fun _ _ _ answers => answers⟩

end OneRoof
