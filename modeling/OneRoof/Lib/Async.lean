import Mathlib.Algebra.Ring.Nat
import Mathlib.Data.List.Basic

/-!
# Programs that issue statements without waiting for them

A program is what one callback does before it returns: it issues statements,
each with a callback of its own, and it performs actions on the world. A
machine keeps the statements in flight in a list and lets any of them settle
next. Nothing is assumed about the order, and a statement may be lost.
-/

namespace Async

variable {S : Type} {R : S → Type} {A C W Q D : Type}

/-- What a callback does, in order. `act a k` performs `a` and goes on with
`k true`, or with `k false` when the action raised. -/
inductive Prog (S : Type) (R : S → Type) (A : Type) where
  | done
  | throw
  | issue (s : S) (k : Option (R s) → Prog S R A) (rest : Prog S R A)
  | act (a : A) (k : Bool → Prog S R A)

namespace Prog

/-- `p.recover h` runs `h` where `p` throws: the `catch` of a promise chain. -/
def recover : Prog S R A → Prog S R A → Prog S R A
  | done, _ => done
  | throw, h => h
  | issue s k rest, h => issue s k (rest.recover h)
  | act a k, h => act a (fun b => (k b).recover h)

/-- `p.andThen q` runs `q` where `p` returns: the next `then` of a chain. -/
def andThen : Prog S R A → Prog S R A → Prog S R A
  | done, q => q
  | throw, _ => throw
  | issue s k rest, q => issue s k (rest.andThen q)
  | act a k, q => act a (fun b => (k b).andThen q)

/-- Every statement the program and its callbacks can issue satisfies `φ`. -/
def Issues (φ : S → Prop) : Prog S R A → Prop
  | done => True
  | throw => True
  | issue s k rest => φ s ∧ (∀ r, (k r).Issues φ) ∧ rest.Issues φ
  | act _ k => ∀ b, (k b).Issues φ

theorem Issues.mono {φ ψ : S → Prop} {p : Prog S R A} (h : p.Issues φ)
    (weaker : ∀ s, φ s → ψ s) : p.Issues ψ := by
  induction p with
  | done => trivial
  | throw => trivial
  | issue s k rest ihk ih => exact ⟨weaker s h.1, fun r => ihk r (h.2.1 r), ih h.2.2⟩
  | act a k ih => exact fun b => ih b (h b)

theorem issues_of_forall {φ : S → Prop} (h : ∀ s, φ s) (p : Prog S R A) : p.Issues φ := by
  induction p with
  | done => trivial
  | throw => trivial
  | issue s k rest ihk ih => exact ⟨h s, ihk, ih⟩
  | act a k ih => exact ih

theorem Issues.recover {φ : S → Prop} {p q : Prog S R A} (hp : p.Issues φ)
    (hq : q.Issues φ) : (p.recover q).Issues φ := by
  induction p with
  | done => trivial
  | throw => exact hq
  | issue s k rest _ ih => exact ⟨hp.1, hp.2.1, ih hp.2.2⟩
  | act a k ih => exact fun b => ih b (hp b)

theorem Issues.andThen {φ : S → Prop} {p q : Prog S R A} (hp : p.Issues φ)
    (hq : q.Issues φ) : (p.andThen q).Issues φ := by
  induction p with
  | done => exact hq
  | throw => trivial
  | issue s k rest _ ih => exact ⟨hp.1, hp.2.1, ih hp.2.2⟩
  | act a k ih => exact fun b => ih b (hp b)

/-- Every action the program and its callbacks can perform satisfies `ψ`. -/
def Acts (ψ : A → Prop) : Prog S R A → Prop
  | done => True
  | throw => True
  | issue _ k rest => (∀ r, (k r).Acts ψ) ∧ rest.Acts ψ
  | act a k => ψ a ∧ ∀ b, (k b).Acts ψ

theorem acts_of_forall {ψ : A → Prop} (h : ∀ a, ψ a) (p : Prog S R A) : p.Acts ψ := by
  induction p with
  | done => trivial
  | throw => trivial
  | issue s k rest ihk ih => exact ⟨ihk, ih⟩
  | act a k ih => exact ⟨h a, ih⟩

theorem Acts.recover {ψ : A → Prop} {p q : Prog S R A} (hp : p.Acts ψ) (hq : q.Acts ψ) :
    (p.recover q).Acts ψ := by
  induction p with
  | done => trivial
  | throw => exact hq
  | issue s k rest _ ih => exact ⟨hp.1, ih hp.2⟩
  | act a k ih => exact ⟨hp.1, fun b => ih b (hp.2 b)⟩

theorem Acts.andThen {ψ : A → Prop} {p q : Prog S R A} (hp : p.Acts ψ) (hq : q.Acts ψ) :
    (p.andThen q).Acts ψ := by
  induction p with
  | done => exact hq
  | throw => trivial
  | issue s k rest _ ih => exact ⟨hp.1, ih hp.2⟩
  | act a k ih => exact ⟨hp.1, fun b => ih b (hp.2 b)⟩

/-- A last callback: it starts only statements that nobody waits for. -/
def Last (φ : S → Prop) (ψ : A → Prop) : Prog S R A → Prop
  | done => True
  | throw => True
  | issue s k rest => φ s ∧ (∀ r, k r = done) ∧ rest.Last φ ψ
  | act a k => ψ a ∧ ∀ b, (k b).Last φ ψ

theorem Last.recover {φ : S → Prop} {ψ : A → Prop} {p q : Prog S R A} (hp : p.Last φ ψ)
    (hq : q.Last φ ψ) : (p.recover q).Last φ ψ := by
  induction p with
  | done => trivial
  | throw => exact hq
  | issue s k rest _ ih => exact ⟨hp.1, hp.2.1, ih hp.2.2⟩
  | act a k ih => exact ⟨hp.1, fun b => ih b (hp.2 b)⟩

/-- A program that starts the given statement, if there is one, and nothing else. -/
def Starts (o : Option S) : Prog S R A → Prop
  | done => o = none
  | throw => o = none
  | issue s k rest => o = some s ∧ (∀ r, k r = done) ∧ rest.Starts none
  | act _ k => ∀ b, (k b).Starts o

theorem Starts.recover {o : Option S} {p q : Prog S R A} (hp : p.Starts o)
    (hq : q.Starts none) : (p.recover q).Starts o := by
  induction p generalizing o with
  | done => exact hp
  | throw => rw [show o = none from hp]; exact hq
  | issue s k rest _ ih => exact ⟨hp.1, hp.2.1, ih hp.2.2⟩
  | act a k ih => exact fun b => ih b (hp b)

/-- How many settlements end a program whose statements are all lost. -/
def lostSize : Prog S R A → Nat
  | done => 0
  | throw => 0
  | issue _ k rest => 1 + (k none).lostSize + rest.lostSize
  | act _ k => max (k true).lostSize (k false).lostSize

end Prog

/-- `exec` runs one statement atomically and `refuse` records that one failed.
`disturb` is what everybody else may do between two steps. -/
structure Machine (S : Type) (R : S → Type) (A C W Q D : Type) where
  exec : C → (s : S) → W → Option (R s × W)
  refuse : C → S → W → W
  perform : C → A → W → Bool × W
  arrive : Q → W → C × Prog S R A × W
  disturb : D → W → W

/-- A statement in flight with the callback that waits for it. -/
structure Pending (S : Type) (R : S → Type) (A C : Type) where
  ctx : C
  stmt : S
  k : Option (R stmt) → Prog S R A

/-- What the program starts, and does, before it returns: its callbacks do not count. -/
def Prog.Begins (c : C) (φ : Pending S R A C → Prop) (ψ : A → Prop) : Prog S R A → Prop
  | .done => True
  | .throw => True
  | .issue s k rest => φ ⟨c, s, k⟩ ∧ rest.Begins c φ ψ
  | .act a k => ψ a ∧ ∀ b, (k b).Begins c φ ψ

theorem Prog.Begins.recover {c : C} {φ : Pending S R A C → Prop} {ψ : A → Prop}
    {p q : Prog S R A} (hp : p.Begins c φ ψ) (hq : q.Begins c φ ψ) :
    (p.recover q).Begins c φ ψ := by
  induction p with
  | done => trivial
  | throw => exact hq
  | issue s k rest _ ih => exact ⟨hp.1, ih hp.2⟩
  | act a k ih => exact ⟨hp.1, fun b => ih b (hp.2 b)⟩

theorem Prog.Last.begins {c : C} {φ : S → Prop} {ψ : A → Prop} {p : Prog S R A}
    (last : p.Last φ ψ) :
    p.Begins c (fun q => q.ctx = c ∧ φ q.stmt ∧ ∀ r, q.k r = .done) ψ := by
  induction p with
  | done => trivial
  | throw => trivial
  | issue s k rest _ ih => exact ⟨⟨rfl, last.1, last.2.1⟩, ih last.2.2⟩
  | act a k ih => exact ⟨last.1, fun b => ih b (last.2 b)⟩

structure Config (S : Type) (R : S → Type) (A C W : Type) where
  world : W
  pending : List (Pending S R A C)

/-- One scheduling decision. `settle i lost` completes the `i`-th statement in
flight; when it is lost it fails whatever the tables hold. -/
inductive Label (Q D : Type) where
  | arrive (q : Q)
  | settle (i : Nat) (lost : Bool)
  | disturb (d : D)

/-- Run a program up to its last effect, in the context it belongs to. -/
def enter (M : Machine S R A C W Q D) (c : C) :
    Prog S R A → Config S R A C W → Config S R A C W
  | .done, σ => σ
  | .throw, σ => σ
  | .issue s k rest, σ => enter M c rest ⟨σ.world, σ.pending ++ [⟨c, s, k⟩]⟩
  | .act a k, σ =>
    enter M c (k (M.perform c a σ.world).1) ⟨(M.perform c a σ.world).2, σ.pending⟩

/-- The outcome of a statement is handed to the callback that waits for it. -/
def deliver (M : Machine S R A C W Q D) (p : Pending S R A C)
    (rest : List (Pending S R A C)) (w : W) :
    Option (R p.stmt × W) → Config S R A C W
  | some (r, w') => enter M p.ctx (p.k (some r)) ⟨w', rest⟩
  | none => enter M p.ctx (p.k none) ⟨M.refuse p.ctx p.stmt w, rest⟩

def settle (M : Machine S R A C W Q D) (i : Nat) (lost : Bool)
    (σ : Config S R A C W) : Config S R A C W :=
  match σ.pending[i]? with
  | none => σ
  | some p => deliver M p (σ.pending.eraseIdx i) σ.world
      (if lost then none else M.exec p.ctx p.stmt σ.world)

def arrive (M : Machine S R A C W Q D) (q : Q) (σ : Config S R A C W) :
    Config S R A C W :=
  enter M (M.arrive q σ.world).1 (M.arrive q σ.world).2.1
    ⟨(M.arrive q σ.world).2.2, σ.pending⟩

def step (M : Machine S R A C W Q D) : Label Q D → Config S R A C W → Config S R A C W
  | .arrive q, σ => arrive M q σ
  | .settle i lost, σ => settle M i lost σ
  | .disturb d, σ => ⟨M.disturb d σ.world, σ.pending⟩

def run (M : Machine S R A C W Q D) (ls : List (Label Q D)) (σ : Config S R A C W) :
    Config S R A C W :=
  ls.foldl (fun σ l => step M l σ) σ

@[simp] theorem run_nil (M : Machine S R A C W Q D) (σ : Config S R A C W) :
    run M [] σ = σ := rfl

@[simp] theorem run_cons (M : Machine S R A C W Q D) (l : Label Q D)
    (ls : List (Label Q D)) (σ : Config S R A C W) :
    run M (l :: ls) σ = run M ls (step M l σ) := rfl

theorem run_append (M : Machine S R A C W Q D) (ls ls' : List (Label Q D))
    (σ : Config S R A C W) : run M (ls ++ ls') σ = run M ls' (run M ls σ) :=
  List.foldl_append

/-- Every step of a run meets a condition on the state before it. -/
def Along (M : Machine S R A C W Q D) (meets : Config S R A C W → Label Q D → Prop) :
    List (Label Q D) → Config S R A C W → Prop
  | [], _ => True
  | l :: ls, σ => meets σ l ∧ Along M meets ls (step M l σ)

instance (M : Machine S R A C W Q D) (meets : Config S R A C W → Label Q D → Prop)
    [∀ σ l, Decidable (meets σ l)] :
    (ls : List (Label Q D)) → (σ : Config S R A C W) → Decidable (Along M meets ls σ)
  | [], _ => isTrue trivial
  | l :: ls, σ =>
    have := instDecidableAlong M meets ls (step M l σ)
    inferInstanceAs (Decidable (meets σ l ∧ Along M meets ls (step M l σ)))

/-- What every step that meets the condition preserves holds after the run. -/
theorem run_invariant {M : Machine S R A C W Q D}
    (meets : Config S R A C W → Label Q D → Prop) (inv : Config S R A C W → Prop)
    (preserved : ∀ σ l, meets σ l → inv σ → inv (step M l σ)) {ls : List (Label Q D)}
    {σ : Config S R A C W} (along : Along M meets ls σ) (start : inv σ) :
    inv (run M ls σ) := by
  induction ls generalizing σ with
  | nil => exact start
  | cons l ls ih => exact ih along.2 (preserved σ l along.1 start)

/-- What an invariant gives at each step holds along the run. -/
theorem along_of_invariant {M : Machine S R A C W Q D}
    {meets gives : Config S R A C W → Label Q D → Prop} (inv : Config S R A C W → Prop)
    (preserved : ∀ σ l, meets σ l → inv σ → inv (step M l σ))
    (given : ∀ σ l, meets σ l → inv σ → gives σ l) {ls : List (Label Q D)}
    {σ : Config S R A C W} (along : Along M meets ls σ) (start : inv σ) : Along M gives ls σ := by
  induction ls generalizing σ with
  | nil => trivial
  | cons l ls ih => exact ⟨given σ l along.1 start, ih along.2 (preserved σ l along.1 start)⟩

theorem Along.last {M : Machine S R A C W Q D} {meets : Config S R A C W → Label Q D → Prop}
    {ls : List (Label Q D)} {l : Label Q D} {σ : Config S R A C W}
    (along : Along M meets (ls ++ [l]) σ) : meets (run M ls σ) l := by
  induction ls generalizing σ with
  | nil => exact along.1
  | cons l' ls ih => exact ih along.2

/-- A check of every step that is enough for a condition. -/
theorem along_of_check {M : Machine S R A C W Q D} {meets : Config S R A C W → Label Q D → Prop}
    (check : Config S R A C W → Label Q D → Bool) (enough : ∀ σ l, check σ l = true → meets σ l)
    {ls : List (Label Q D)} {σ : Config S R A C W}
    (along : Along M (fun σ l => check σ l = true) ls σ) : Along M meets ls σ := by
  induction ls generalizing σ with
  | nil => trivial
  | cons l ls ih => exact ⟨enough σ l along.1, ih along.2⟩

theorem along_of_forall {M : Machine S R A C W Q D} (allowed : Label Q D → Prop)
    {ls : List (Label Q D)} (h : ∀ l ∈ ls, allowed l) (σ : Config S R A C W) :
    Along M (fun _ l => allowed l) ls σ := by
  induction ls generalizing σ with
  | nil => trivial
  | cons l ls ih =>
    exact ⟨h l List.mem_cons_self, ih (fun l' hl => h l' (List.mem_cons_of_mem l hl)) _⟩

/-- What no action changes, no program changes before its statements settle. -/
theorem enter_observe {α : Type} {M : Machine S R A C W Q D} {f : W → α}
    (kept : ∀ c a w, f (M.perform c a w).2 = f w) (c : C) (p : Prog S R A)
    (σ : Config S R A C W) : f (enter M c p σ).world = f σ.world := by
  induction p generalizing σ with
  | done => rfl
  | throw => rfl
  | issue s k rest _ ih => exact ih _
  | act a k ih => exact (ih _ _).trans (kept c a σ.world)

/-- The statements in flight that were there stay there. -/
theorem enter_pending (M : Machine S R A C W Q D) (c : C) (p : Prog S R A)
    (σ : Config S R A C W) : ∃ new, (enter M c p σ).pending = σ.pending ++ new ∧
      ∀ q ∈ new, q.ctx = c := by
  induction p generalizing σ with
  | done => exact ⟨[], by simp [enter]⟩
  | throw => exact ⟨[], by simp [enter]⟩
  | issue s k rest _ ih =>
    obtain ⟨new, hn, hc⟩ := ih ⟨σ.world, σ.pending ++ [⟨c, s, k⟩]⟩
    refine ⟨⟨c, s, k⟩ :: new, by simpa [enter] using hn, ?_⟩
    intro q hq
    rcases List.mem_cons.mp hq with rfl | hq
    · rfl
    · exact hc q hq
  | act a k ih => exact ih _ _

theorem enter_starts {M : Machine S R A C W Q D} {o : Option S} {c : C} {p : Prog S R A}
    (starts : p.Starts o) (σ : Config S R A C W) :
    (enter M c p σ).pending =
      σ.pending ++ (o.map fun s => (⟨c, s, fun _ => .done⟩ : Pending S R A C)).toList := by
  induction p generalizing o σ with
  | done => cases (show o = none from starts); exact (List.append_nil _).symm
  | throw => cases (show o = none from starts); exact (List.append_nil _).symm
  | issue s k rest _ ih =>
    obtain ⟨rfl, loose, starts⟩ := starts
    have same : k = fun _ => .done := funext loose
    subst same
    exact (ih starts ⟨σ.world, σ.pending ++ [⟨c, s, fun _ => .done⟩]⟩).trans (List.append_nil _)
  | act a k ih => exact ih _ (starts _) _

/-- A program does not look at what is in flight. -/
theorem enter_frame (M : Machine S R A C W Q D) (c : C) (p : Prog S R A) (w : W)
    (ps qs : List (Pending S R A C)) :
    enter M c p ⟨w, ps ++ qs⟩ =
      ⟨(enter M c p ⟨w, qs⟩).world, ps ++ (enter M c p ⟨w, qs⟩).pending⟩ := by
  induction p generalizing w qs with
  | done => rfl
  | throw => rfl
  | issue s k rest _ ih =>
    simp only [enter, List.append_assoc]
    exact ih w (qs ++ [⟨c, s, k⟩])
  | act a k ih => exact ih _ _ qs

theorem mem_enter_old {M : Machine S R A C W Q D} {c : C} {prog : Prog S R A} {w : W}
    {ps : List (Pending S R A C)} {p : Pending S R A C} (hp : p ∈ ps) :
    p ∈ (enter M c prog ⟨w, ps⟩).pending := by
  obtain ⟨new, pending, -⟩ := enter_pending M c prog ⟨w, ps⟩
  rw [pending]
  exact List.mem_append_left new hp

/-- What is new in flight belongs to the program that was entered. -/
theorem mem_enter {M : Machine S R A C W Q D} {c : C} {prog : Prog S R A} {w : W}
    {ps : List (Pending S R A C)} {p : Pending S R A C}
    (hp : p ∈ (enter M c prog ⟨w, ps⟩).pending) :
    p ∈ ps ∨ p.ctx = c ∧ p ∈ (enter M c prog ⟨w, []⟩).pending := by
  have frame := enter_frame M c prog w ps []
  rw [List.append_nil] at frame
  rw [frame] at hp
  rcases List.mem_append.mp hp with old | new
  · exact Or.inl old
  · obtain ⟨more, pending, ctx⟩ := enter_pending M c prog ⟨w, []⟩
    refine Or.inr ⟨ctx p ?_, new⟩
    rw [pending, List.nil_append] at new
    exact new

/-- What is settled is what stood there, or stays. -/
theorem mem_or_erased {α : Type} {l : List α} {i : Nat} {a b : α} (ha : l[i]? = some a)
    (hb : b ∈ l) : b = a ∨ b ∈ l.eraseIdx i := by
  obtain ⟨j, hj⟩ := List.mem_iff_getElem?.mp hb
  by_cases same : j = i
  · subst same
    exact Or.inl (Option.some.inj (hj.symm.trans ha))
  · exact Or.inr (List.mem_eraseIdx_iff_getElem?.mpr ⟨j, same, hj⟩)

/-- A program keeps what its actions keep, and what it starts is in flight. -/
theorem enter_begins {M : Machine S R A C W Q D} {c : C} {φ : Pending S R A C → Prop}
    {ψ : A → Prop} {inv : W → Prop} (kept : ∀ a w, ψ a → inv w → inv (M.perform c a w).2)
    {p : Prog S R A} (begins : p.Begins c φ ψ) (σ : Config S R A C W) (start : inv σ.world) :
    inv (enter M c p σ).world ∧ ∃ new, (enter M c p σ).pending = σ.pending ++ new ∧
      ∀ q ∈ new, φ q := by
  induction p generalizing σ with
  | done => exact ⟨start, [], by simp [enter]⟩
  | throw => exact ⟨start, [], by simp [enter]⟩
  | issue s k rest _ ih =>
    obtain ⟨hw, new, pending, each⟩ := ih begins.2 ⟨σ.world, σ.pending ++ [⟨c, s, k⟩]⟩ start
    refine ⟨hw, ⟨c, s, k⟩ :: new, by simpa [enter] using pending, fun q hq => ?_⟩
    rcases List.mem_cons.mp hq with rfl | hq
    · exact begins.1
    · exact each q hq
  | act a k ih => exact ih _ (begins.2 _) _ (kept a _ begins.1 start)

/-- A last callback keeps what its actions keep, and leaves nobody waiting. -/
theorem enter_last {M : Machine S R A C W Q D} {φ : S → Prop} {ψ : A → Prop} {c : C}
    {inv : W → Prop} (kept : ∀ a w, ψ a → inv w → inv (M.perform c a w).2) {p : Prog S R A}
    (last : p.Last φ ψ) (σ : Config S R A C W) (start : inv σ.world) :
    inv (enter M c p σ).world ∧ ∃ new, (enter M c p σ).pending = σ.pending ++ new ∧
      ∀ q ∈ new, q.ctx = c ∧ φ q.stmt ∧ ∀ r, q.k r = .done :=
  enter_begins kept last.begins σ start

/-- What is in flight belongs to a context that may issue it, now and later. -/
def Bounded (φ : C → S → Prop) (σ : Config S R A C W) : Prop :=
  ∀ p ∈ σ.pending, φ p.ctx p.stmt ∧ ∀ r, (p.k r).Issues (φ p.ctx)

theorem enter_bounded {M : Machine S R A C W Q D} {φ : C → S → Prop} (c : C) (p : Prog S R A)
    (σ : Config S R A C W) (hp : p.Issues (φ c)) (h : Bounded φ σ) :
    Bounded φ (enter M c p σ) := by
  induction p generalizing σ with
  | done => exact h
  | throw => exact h
  | issue s k rest _ ih =>
    refine ih ⟨σ.world, σ.pending ++ [⟨c, s, k⟩]⟩ hp.2.2 (fun q hq => ?_)
    rcases List.mem_append.mp hq with old | new
    · exact h q old
    · rw [List.mem_singleton.mp new]
      exact ⟨hp.1, hp.2.1⟩
  | act a k ih => exact ih _ _ (hp _) h

/-- A settlement either finds nothing at its index or delivers one outcome. -/
theorem settle_cases (M : Machine S R A C W Q D) (i : Nat) (lost : Bool)
    (σ : Config S R A C W) :
    settle M i lost σ = σ ∨ ∃ p, σ.pending[i]? = some p ∧
      settle M i lost σ = deliver M p (σ.pending.eraseIdx i) σ.world
        (if lost then none else M.exec p.ctx p.stmt σ.world) := by
  cases h : σ.pending[i]? with
  | none => exact Or.inl (by simp [settle, h])
  | some p => exact Or.inr ⟨p, rfl, by simp [settle, h]⟩

theorem mem_settle_old {M : Machine S R A C W Q D} {i : Nat} {lost : Bool}
    {σ : Config S R A C W} {p p' : Pending S R A C} (hp : σ.pending[i]? = some p)
    (rest : p' ∈ σ.pending.eraseIdx i) : p' ∈ (settle M i lost σ).pending := by
  simp only [settle, hp]
  cases (if lost then none else M.exec p.ctx p.stmt σ.world) with
  | none => exact mem_enter_old rest
  | some rw => exact mem_enter_old rest

/-- What is in flight after a settlement belongs to a request that was there before. -/
theorem mem_settle {M : Machine S R A C W Q D} {i : Nat} {lost : Bool} {σ : Config S R A C W}
    {p : Pending S R A C} (hp : p ∈ (settle M i lost σ).pending) :
    ∃ p' ∈ σ.pending, p'.ctx = p.ctx := by
  rcases settle_cases M i lost σ with same | ⟨p', hp', hs⟩
  · exact ⟨p, same ▸ hp, rfl⟩
  rw [hs] at hp
  have entered : ∀ {prog : Prog S R A} {w : W},
      p ∈ (enter M p'.ctx prog ⟨w, σ.pending.eraseIdx i⟩).pending →
        ∃ q ∈ σ.pending, q.ctx = p.ctx := by
    intro prog w mem
    rcases mem_enter mem with old | ⟨ctx, -⟩
    · exact ⟨p, List.mem_of_mem_eraseIdx old, rfl⟩
    · exact ⟨p', List.mem_of_getElem? hp', ctx.symm⟩
  cases ho : (if lost then none else M.exec p'.ctx p'.stmt σ.world) with
  | none => exact entered (ho ▸ hp)
  | some rw => exact entered (ho ▸ hp)

/-- Statements that were in flight before do not matter to the later ones. -/
theorem settle_frame (M : Machine S R A C W Q D) (i : Nat) (lost : Bool) (w : W)
    (ps qs : List (Pending S R A C)) :
    settle M (ps.length + i) lost ⟨w, ps ++ qs⟩ =
      ⟨(settle M i lost ⟨w, qs⟩).world, ps ++ (settle M i lost ⟨w, qs⟩).pending⟩ := by
  have same : (ps ++ qs)[ps.length + i]? = qs[i]? := by
    rw [List.getElem?_append_right (by omega)]
    congr 1
    omega
  have rest : (ps ++ qs).eraseIdx (ps.length + i) = ps ++ qs.eraseIdx i := by
    rw [List.eraseIdx_append_of_length_le (by omega)]
    congr 2
    omega
  simp only [settle, same]
  cases hq : qs[i]? with
  | none => rfl
  | some p =>
    simp only [rest]
    cases (if lost then none else M.exec p.ctx p.stmt w) with
    | none => exact enter_frame M p.ctx (p.k none) _ ps _
    | some rw => exact enter_frame M p.ctx (p.k (some rw.1)) _ ps _

theorem settle_bounded {M : Machine S R A C W Q D} {φ : C → S → Prop} (i : Nat) (lost : Bool)
    (σ : Config S R A C W) (h : Bounded φ σ) : Bounded φ (settle M i lost σ) := by
  rcases settle_cases M i lost σ with same | ⟨p, hp, hs⟩
  · rw [same]
    exact h
  have rest : ∀ w, Bounded φ (⟨w, σ.pending.eraseIdx i⟩ : Config S R A C W) :=
    fun _ q hq => h q (List.mem_of_mem_eraseIdx hq)
  have callback := (h p (List.mem_of_getElem? hp)).2
  rw [hs]
  cases (if lost then none else M.exec p.ctx p.stmt σ.world) with
  | none => exact enter_bounded _ _ _ (callback none) (rest _)
  | some rw => exact enter_bounded _ _ _ (callback (some rw.1)) (rest _)

theorem settle_idle (M : Machine S R A C W Q D) (i : Nat) (lost : Bool)
    (σ : Config S R A C W) (idle : σ.pending = []) : settle M i lost σ = σ := by
  simp [settle, idle]

/-- Settlements that all fail end the statements in flight: the weight below
goes down at each of them. -/
def weight (ps : List (Pending S R A C)) : Nat :=
  (ps.map (fun p => 1 + (p.k none).lostSize)).sum

theorem weight_append (ps qs : List (Pending S R A C)) :
    weight (ps ++ qs) = weight ps + weight qs := by
  simp [weight]

theorem enter_weight (M : Machine S R A C W Q D) (c : C) (p : Prog S R A)
    (σ : Config S R A C W) :
    weight (enter M c p σ).pending ≤ weight σ.pending + p.lostSize := by
  induction p generalizing σ with
  | done => exact Nat.le_refl _
  | throw => exact Nat.le_refl _
  | issue s k rest _ ih =>
    have h := ih ⟨σ.world, σ.pending ++ [⟨c, s, k⟩]⟩
    rw [weight_append] at h
    simp only [enter, Prog.lostSize]
    simp only [weight, List.map_cons, List.map_nil, List.sum_cons, List.sum_nil] at h ⊢
    omega
  | act a k ih =>
    have h := ih (M.perform c a σ.world).1 ⟨(M.perform c a σ.world).2, σ.pending⟩
    refine Nat.le_trans h (Nat.add_le_add_left ?_ _)
    cases (M.perform c a σ.world).1
    · exact Nat.le_max_right _ _
    · exact Nat.le_max_left _ _

theorem lose_weight (M : Machine S R A C W Q D) (σ : Config S R A C W)
    (busy : σ.pending ≠ []) : weight (settle M 0 true σ).pending < weight σ.pending := by
  obtain ⟨w, ps⟩ := σ
  cases ps with
  | nil => exact absurd rfl busy
  | cons p ps =>
    have h := enter_weight M p.ctx (p.k none) ⟨M.refuse p.ctx p.stmt w, ps⟩
    have hs : settle M 0 true ⟨w, p :: ps⟩ =
        enter M p.ctx (p.k none) ⟨M.refuse p.ctx p.stmt w, ps⟩ := rfl
    have hw : weight (p :: ps) = 1 + (p.k none).lostSize + weight ps := by
      simp [weight]
    rw [hs]
    change _ < weight (p :: ps)
    simp only at h
    omega

/-- From every state some run of settlements leaves nothing in flight. -/
theorem exists_quiescent (M : Machine S R A C W Q D) (σ : Config S R A C W) :
    ∃ n, (run M (List.replicate n (.settle 0 true)) σ).pending = [] := by
  induction hn : weight σ.pending using Nat.strongRecOn generalizing σ with
  | ind n ih =>
    by_cases idle : σ.pending = []
    · exact ⟨0, idle⟩
    · obtain ⟨m, hm⟩ := ih _ (hn ▸ lose_weight M σ idle) _ rfl
      exact ⟨m + 1, hm⟩

end Async
