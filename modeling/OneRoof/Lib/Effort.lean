import OneRoof.Lib.Weights

/-!
# How much work is left

A program has an effort: the most statements it and its callbacks can issue, whatever the
outcomes are. What is in flight owes one settlement each and the effort of its callback, so a
settlement uses up one unit of what is owed at least, in any order and with any losses. When
nothing arrives any more, the machine is at rest after as many settlements as are owed.
-/

namespace Async

variable {S : Type} {R : S → Type} {A C W Q D : Type}

/-- The program and its callbacks issue at most `n` statements. -/
def Prog.Spends : Nat → Prog S R A → Prop
  | _, .done => True
  | _, .throw => True
  | n, .issue _ k rest => ∃ a b, 1 + a + b ≤ n ∧ (∀ r, (k r).Spends a) ∧ rest.Spends b
  | n, .act _ k => ∀ b, (k b).Spends n

section Programs

variable {m n : Nat} {p q : Prog S R A}

theorem Prog.Spends.mono (h : p.Spends m) (le : m ≤ n) : p.Spends n := by
  induction p generalizing m n with
  | done => trivial
  | throw => trivial
  | issue s k rest _ _ =>
    obtain ⟨a, b, sum, callbacks, rests⟩ := h
    exact ⟨a, b, Nat.le_trans sum le, callbacks, rests⟩
  | act a k ih => exact fun b => ih b (h b) le

theorem Prog.Spends.recover (hp : p.Spends m) (hq : q.Spends n) :
    (p.recover q).Spends (m + n) := by
  induction p generalizing m with
  | done => trivial
  | throw => exact hq.mono (Nat.le_add_left n m)
  | issue s k rest _ ih =>
    obtain ⟨a, b, sum, callbacks, rests⟩ := hp
    exact ⟨a, b + n, by omega, callbacks, ih rests⟩
  | act a k ih => exact fun b => ih b (hp b)

theorem Prog.Spends.andThen (hp : p.Spends m) (hq : q.Spends n) :
    (p.andThen q).Spends (m + n) := by
  induction p generalizing m with
  | done => exact hq.mono (Nat.le_add_left n m)
  | throw => trivial
  | issue s k rest _ ih =>
    obtain ⟨a, b, sum, callbacks, rests⟩ := hp
    exact ⟨a, b + n, by omega, callbacks, ih rests⟩
  | act a k ih => exact fun b => ih b (hp b)

end Programs

/-- A statement in flight stands for its own settlement and the effort of its callback. -/
def Pending.Stands (n : Nat) (p : Pending S R A C) : Prop :=
  ∃ m, m + 1 = n ∧ ∀ r, (p.k r).Spends m

/-- No more than this is left to do. -/
def Owing (n : Nat) (σ : Config S R A C W) : Prop :=
  ∃ m ≤ n, Weighed Pending.Stands σ.pending m

/-- One settlement of something that is in flight. -/
def Settlement (σ : Config S R A C W) (l : Label Q D) : Prop :=
  ∃ i lost, l = .settle i lost ∧ i < σ.pending.length

variable {M : Machine S R A C W Q D} {n : Nat}

theorem Owing.rest {σ : Config S R A C W} (owing : Owing 0 σ) : σ.pending = [] := by
  obtain ⟨m, le, weighed⟩ := owing
  have none : m = 0 := by omega
  subst none
  generalize σ.pending = ps at weighed
  cases ps with
  | nil => rfl
  | cons p ps =>
    exfalso
    generalize zero : (0 : Nat) = m at weighed
    cases weighed with
    | @cons a b _ _ first rest =>
      obtain ⟨m, sum, -⟩ := first
      omega

theorem Owing.mono {m : Nat} {σ : Config S R A C W} (owing : Owing m σ) (le : m ≤ n) :
    Owing n σ := by
  obtain ⟨k, small, weighed⟩ := owing
  exact ⟨k, Nat.le_trans small le, weighed⟩

theorem enter_owing (c : C) (p : Prog S R A) {m : Nat} (σ : Config S R A C W)
    (spends : p.Spends m) (owing : Owing n σ) : Owing (n + m) (enter M c p σ) := by
  induction p generalizing σ m n with
  | done => exact owing.mono (Nat.le_add_right n m)
  | throw => exact owing.mono (Nat.le_add_right n m)
  | issue s k rest _ ih =>
    obtain ⟨a, b, sum, callbacks, rests⟩ := spends
    obtain ⟨l, small, weighed⟩ := owing
    have grown : Owing (n + (a + 1)) (⟨σ.world, σ.pending ++ [⟨c, s, k⟩]⟩ : Config S R A C W) :=
      ⟨l + (a + 1), by omega, weighed.append (.single ⟨a, rfl, callbacks⟩)⟩
    exact (ih _ rests grown).mono (by omega)
  | act a k ih => exact ih _ _ (spends _) owing

/-- A settlement uses up one unit at least. -/
theorem settle_owing {i : Nat} (lost : Bool) {σ : Config S R A C W} (owing : Owing (n + 1) σ)
    (flies : i < σ.pending.length) : Owing n (settle M i lost σ) := by
  obtain ⟨l, small, weighed⟩ := owing
  have found : σ.pending[i]? = some σ.pending[i] := List.getElem?_eq_getElem flies
  obtain ⟨a, m, ⟨k, one, callbacks⟩, others, sum⟩ := weighed.erase found
  have rest : ∀ w : W, Owing m (⟨w, σ.pending.eraseIdx i⟩ : Config S R A C W) :=
    fun w => ⟨m, Nat.le_refl m, others⟩
  unfold settle
  rw [found]
  dsimp only
  split
  · exact (enter_owing _ _ _ (callbacks none) (rest _)).mono (by omega)
  · cases M.exec σ.pending[i].ctx σ.pending[i].stmt σ.world with
    | none => exact (enter_owing _ _ _ (callbacks none) (rest _)).mono (by omega)
    | some rw => exact (enter_owing _ _ _ (callbacks (some rw.1)) (rest _)).mono (by omega)

/-- Something is owed while something is in flight. -/
theorem Owing.pos {σ : Config S R A C W} (owing : Owing n σ) {i : Nat}
    (flies : i < σ.pending.length) : 0 < n := by
  rcases Nat.eq_zero_or_pos n with rfl | pos
  · rw [owing.rest] at flies
    exact absurd flies (Nat.not_lt_zero i)
  · exact pos

/-- No more settlements than are owed, in whatever order. -/
theorem length_le_owing {ls : List (Label Q D)} {σ : Config S R A C W}
    (settles : Along M Settlement ls σ) (owing : Owing n σ) : ls.length ≤ n := by
  induction ls generalizing σ n with
  | nil => exact Nat.zero_le n
  | cons l ls ih =>
    obtain ⟨⟨i, lost, rfl, flies⟩, rest⟩ := settles
    have pos := owing.pos flies
    obtain ⟨m, rfl⟩ : ∃ m, n = m + 1 := ⟨n - 1, by omega⟩
    exact Nat.succ_le_succ (ih rest (settle_owing lost owing flies))

/-- First come, first served: after as many settlements as are owed nothing is in flight. -/
theorem drained (lost : Bool) {σ : Config S R A C W} (owing : Owing n σ) :
    (run M (List.replicate n (.settle 0 lost)) σ).pending = [] := by
  induction n generalizing σ with
  | zero => exact owing.rest
  | succ n ih =>
    rw [List.replicate_succ, run_cons]
    by_cases flies : 0 < σ.pending.length
    · exact ih (settle_owing lost owing flies)
    · have idle : σ.pending = [] := List.length_eq_zero_iff.mp (by omega)
      rw [step, settle_idle M 0 lost σ idle]
      exact ih ⟨0, Nat.zero_le n, by rw [idle]; exact .nil⟩

/-- What a label may add to what is owed. -/
def Label.effort (effort : Q → Nat) : Label Q D → Nat
  | .arrive q => effort q
  | .settle _ _ => 0
  | .disturb _ => 0

/-- The settlements among the steps of a run that find something in flight. -/
def settlements (M : Machine S R A C W Q D) : List (Label Q D) → Config S R A C W → Nat
  | [], _ => 0
  | l :: ls, σ => (match l with
      | .settle i _ => if i < σ.pending.length then 1 else 0
      | _ => 0) + settlements M ls (step M l σ)

/-- One step: what is settled was owed, what arrives is added. -/
theorem step_owing {effort : Q → Nat} (spends : ∀ q w, (M.arrive q w).2.1.Spends (effort q))
    (l : Label Q D) {σ : Config S R A C W} (owing : Owing n σ) :
    ∃ m, Owing m (step M l σ) ∧ settlements M [l] σ + m = n + l.effort effort := by
  cases l with
  | arrive q =>
    refine ⟨n + effort q, ?_, by simp [settlements, Label.effort]⟩
    exact enter_owing (σ := ⟨(M.arrive q σ.world).2.2, σ.pending⟩) _ _ (spends q σ.world) owing
  | settle i lost =>
    by_cases flies : i < σ.pending.length
    · have pos := owing.pos flies
      obtain ⟨m, rfl⟩ : ∃ m, n = m + 1 := ⟨n - 1, by omega⟩
      refine ⟨m, settle_owing lost owing flies, ?_⟩
      simp [settlements, Label.effort, flies, Nat.add_comm]
    · have same : settle M i lost σ = σ := by
        simp [settle, Nat.le_of_not_lt flies]
      rw [step, same]
      exact ⟨n, owing, by simp [settlements, Label.effort, flies]⟩
  | disturb d => exact ⟨n, owing, by simp [settlements, Label.effort]⟩

/-- What has been settled and what is owed are what was owed and what has arrived. -/
theorem run_owing {effort : Q → Nat} (spends : ∀ q w, (M.arrive q w).2.1.Spends (effort q))
    (ls : List (Label Q D)) {σ : Config S R A C W} (owing : Owing n σ) :
    ∃ m, Owing m (run M ls σ) ∧
      settlements M ls σ + m = n + (ls.map (Label.effort effort)).sum := by
  induction ls generalizing σ n with
  | nil => exact ⟨n, owing, by simp [settlements]⟩
  | cons l ls ih =>
    obtain ⟨m, stepped, first⟩ := step_owing spends l owing
    obtain ⟨k, ran, rest⟩ := ih stepped
    refine ⟨k, ran, ?_⟩
    simp only [settlements] at first ⊢
    rw [List.map_cons, List.sum_cons]
    omega

end Async
