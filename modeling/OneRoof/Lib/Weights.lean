import OneRoof.Lib.Async

/-!
# Counting what programs still have to do

Statements in flight are given weights, and a weight moves from a statement to
what its callback does. Two countings are built on this: how often a program
performs a marked action, exactly, and how many marked statements and actions it
has left, at most. Both hold for every pattern of outcomes and in every order.
-/

namespace Async

variable {S : Type} {R : S → Type} {A C W Q D : Type}

/-- Each element has a weight it owes, and the list has their sum. -/
inductive Weighed {α : Type} (owes : Nat → α → Prop) : List α → Nat → Prop
  | nil : Weighed owes [] 0
  | cons {a n : Nat} {p : α} {ps : List α} (first : owes a p) (rest : Weighed owes ps n) :
      Weighed owes (p :: ps) (a + n)

section Weighed

variable {α : Type} {owes : Nat → α → Prop} {ps qs : List α} {m n : Nat}

theorem Weighed.append (hp : Weighed owes ps m) (hq : Weighed owes qs n) :
    Weighed owes (ps ++ qs) (m + n) := by
  induction hp with
  | nil => simpa using hq
  | cons first _ ih =>
    rw [Nat.add_assoc]
    exact .cons first ih

theorem Weighed.single {p : α} (h : owes n p) : Weighed owes [p] n := .cons h .nil

/-- One element and its weight are taken out. -/
theorem Weighed.erase (h : Weighed owes ps n) {i : Nat} {p : α} (hi : ps[i]? = some p) :
    ∃ a m, owes a p ∧ Weighed owes (ps.eraseIdx i) m ∧ n = a + m := by
  induction h generalizing i with
  | nil => cases hi
  | @cons a n q qs first rest ih =>
    cases i with
    | zero =>
      cases hi
      exact ⟨a, n, first, rest, rfl⟩
    | succ i =>
      obtain ⟨b, m, owed, erased, hn⟩ := ih hi
      exact ⟨b, a + m, owed, .cons first erased, by omega⟩

theorem Weighed.eq_zero (h : Weighed owes [] n) : n = 0 := by
  cases h
  rfl

theorem weighed_zero (h : ∀ p ∈ ps, owes 0 p) : Weighed owes ps 0 := by
  induction ps with
  | nil => exact .nil
  | cons p ps ih =>
    exact .cons (h p List.mem_cons_self) (ih fun q hq => h q (List.mem_cons_of_mem p hq))

end Weighed

section Calls

variable (calls : A → Bool)

/-- The program performs exactly `n` marked actions, whatever the outcomes, as
long as the first of all is not refused. -/
def Prog.Makes : Nat → Prog S R A → Prop
  | n, .done => n = 0
  | n, .throw => n = 0
  | n, .issue _ k rest => ∃ a b, a + b = n ∧ (∀ r, (k r).Makes a) ∧ rest.Makes b
  | n, .act a k => if calls a then ∃ m, n = m + 1 ∧ (k true).Makes m else ∀ b, (k b).Makes n

/-- What a machine counts are its marked actions, and the first of them is not
refused. -/
structure Counts (M : Machine S R A C W Q D) (count : W → Nat) : Prop where
  exec : ∀ {c s w r w'}, M.exec c s w = some (r, w') → count w' = count w
  refuse : ∀ c s w, count (M.refuse c s w) = count w
  disturb : ∀ d w, count (M.disturb d w) = count w
  perform : ∀ c a w, count (M.perform c a w).2 = count w + (calls a).toNat
  first : ∀ {c a w}, calls a = true → count w = 0 → (M.perform c a w).1 = true

/-- One marked action in all: it has been performed, or it is owed. -/
def OnceIn (count : W → Nat) (σ : Config S R A C W) : Prop :=
  ∃ n, Weighed (fun a (p : Pending S R A C) => ∀ r, (p.k r).Makes calls a) σ.pending n ∧
    count σ.world + n = 1

variable {calls} {M : Machine S R A C W Q D} {count : W → Nat}

theorem enter_onceIn (counts : Counts calls M count) (c : C) (p : Prog S R A) {m n : Nat}
    (σ : Config S R A C W) (makes : p.Makes calls m)
    (weighed : Weighed (fun a (p : Pending S R A C) => ∀ r, (p.k r).Makes calls a) σ.pending n)
    (total : count σ.world + m + n = 1) : OnceIn calls count (enter M c p σ) := by
  induction p generalizing σ m n with
  | done =>
    have hm : m = 0 := makes
    exact ⟨n, weighed, by simp only [enter]; omega⟩
  | throw =>
    have hm : m = 0 := makes
    exact ⟨n, weighed, by simp only [enter]; omega⟩
  | issue s k rest _ ih =>
    obtain ⟨a, b, hab, callbacks, rests⟩ := makes
    exact ih ⟨σ.world, σ.pending ++ [⟨c, s, k⟩]⟩ rests (weighed.append (.single callbacks))
      (by change count σ.world + b + (n + a) = 1; omega)
  | act a k ih =>
    have counted := counts.perform c a σ.world
    simp only [Prog.Makes] at makes
    split at makes
    · rename_i marked
      obtain ⟨l, hl, next⟩ := makes
      simp only [marked, Bool.toNat_true] at counted
      have taken := counts.first (c := c) marked (show count σ.world = 0 by omega)
      refine ih _ ⟨_, σ.pending⟩ (by rw [taken]; exact next) weighed ?_
      change count (M.perform c a σ.world).2 + l + n = 1
      omega
    · rename_i plain
      simp only [Bool.not_eq_true] at plain
      simp only [plain, Bool.toNat_false] at counted
      refine ih _ ⟨_, σ.pending⟩ (makes _) weighed ?_
      change count (M.perform c a σ.world).2 + m + n = 1
      omega

theorem settle_onceIn (counts : Counts calls M count) (i : Nat) (lost : Bool)
    (σ : Config S R A C W) (once : OnceIn calls count σ) :
    OnceIn calls count (settle M i lost σ) := by
  obtain ⟨n, weighed, total⟩ := once
  rcases settle_cases M i lost σ with same | ⟨p, hp, hs⟩
  · rw [same]
    exact ⟨n, weighed, total⟩
  obtain ⟨a, m, callbacks, others, hn⟩ := weighed.erase hp
  rw [hs]
  have outcome : ∀ o, o = none ∨ o = M.exec p.ctx p.stmt σ.world →
      OnceIn calls count (deliver M p (σ.pending.eraseIdx i) σ.world o) := by
    intro o ho
    cases o with
    | none =>
      refine enter_onceIn counts p.ctx (p.k none) ⟨_, _⟩ (callbacks none) others ?_
      change count (M.refuse p.ctx p.stmt σ.world) + a + m = 1
      rw [counts.refuse]
      omega
    | some rw =>
      obtain ⟨r, w⟩ := rw
      refine enter_onceIn counts p.ctx (p.k (some r)) ⟨_, _⟩ (callbacks (some r)) others ?_
      change count w + a + m = 1
      rw [counts.exec (ho.resolve_left (by simp)).symm]
      omega
  apply outcome
  cases lost
  · exact Or.inr rfl
  · exact Or.inl rfl

/-- A request whose program makes one call has made it when nothing is in flight. -/
theorem run_once (counts : Counts calls M count) {ls : List (Label Q D)}
    (closed : ∀ l ∈ ls, ∀ q, l ≠ .arrive q) {σ : Config S R A C W}
    (once : OnceIn calls count σ) (settled : (run M ls σ).pending = []) :
    count (run M ls σ).world = 1 := by
  have preserved : ∀ (σ : Config S R A C W) l, (∀ q, l ≠ .arrive q) →
      OnceIn calls count σ → OnceIn calls count (step M l σ) := by
    intro σ l noArrival h
    cases l with
    | arrive q => exact absurd rfl (noArrival q)
    | settle i lost => exact settle_onceIn counts i lost σ h
    | disturb d =>
      obtain ⟨n, weighed, total⟩ := h
      exact ⟨n, weighed, by rw [step]; exact (counts.disturb d σ.world).symm ▸ total⟩
  obtain ⟨n, weighed, total⟩ := run_invariant (M := M) (fun _ l => ∀ q, l ≠ .arrive q)
    (OnceIn calls count) preserved (along_of_forall _ closed σ) once
  rw [settled] at weighed
  have := weighed.eq_zero
  omega

end Calls

section Quota

variable (stmts : C → S → Bool) (acts : C → A → Bool)

/-- The program sends and performs at most `n` marked statements and actions, where
the end by a throw counts `t` and the first marked action is not refused. -/
def Prog.Costs (c : C) : Nat → Nat → Prog S R A → Prop
  | _, _, .done => True
  | t, n, .throw => t ≤ n
  | t, n, .issue s k rest => ∃ a b, (stmts c s).toNat + a + b ≤ n ∧
      (∀ r, (k r).Costs c 0 a) ∧ rest.Costs c t b
  | t, n, .act a k =>
    if acts c a then ∃ m, m + 1 ≤ n ∧ (k true).Costs c t m else ∀ b, (k b).Costs c t n

/-- What a statement in flight and its callback may still add. -/
def Owes (n : Nat) (p : Pending S R A C) : Prop :=
  ∃ m, (stmts p.ctx p.stmt).toNat + m ≤ n ∧ ∀ r, (p.k r).Costs stmts acts p.ctx 0 m

/-- A count that only marked statements and actions raise. -/
structure Metered (M : Machine S R A C W Q D) (ok : C → S → Prop) (count : W → Nat) : Prop where
  exec : ∀ {c s w r w'}, ok c s → M.exec c s w = some (r, w') →
    count w' ≤ count w + (stmts c s).toNat
  refuse : ∀ c s w, count (M.refuse c s w) ≤ count w
  perform : ∀ c a w, count (M.perform c a w).2 ≤ count w + (acts c a).toNat
  first : ∀ {c a w}, acts c a = true → count w = 0 → (M.perform c a w).1 = true

/-- What is counted, and what is still to come, is one at most. -/
def Quota (count : W → Nat) (σ : Config S R A C W) : Prop :=
  ∃ n, Weighed (Owes stmts acts) σ.pending n ∧ count σ.world + n ≤ 1

variable {stmts} {acts} {c : C} {t n : Nat}

theorem Prog.Costs.mono {m : Nat} {p : Prog S R A} (h : p.Costs stmts acts c t n) (le : n ≤ m) :
    p.Costs stmts acts c t m := by
  induction p generalizing n m with
  | done => trivial
  | throw => exact Nat.le_trans h le
  | issue s k rest _ _ =>
    obtain ⟨a, b, sum, callbacks, rests⟩ := h
    exact ⟨a, b, Nat.le_trans sum le, callbacks, rests⟩
  | act a k ih =>
    simp only [Prog.Costs] at h ⊢
    split at h
    · rename_i marked
      obtain ⟨l, sum, next⟩ := h
      rw [if_pos marked]
      exact ⟨l, Nat.le_trans sum le, next⟩
    · rename_i plain
      rw [if_neg plain]
      exact fun b => ih b (h b) le

/-- What a `catch` costs is what a throw counts. -/
theorem Prog.Costs.recover {t' : Nat} {p h : Prog S R A} (hp : p.Costs stmts acts c t n)
    (hh : h.Costs stmts acts c t' t) : (p.recover h).Costs stmts acts c t' n := by
  induction p generalizing n with
  | done => trivial
  | throw => exact hh.mono hp
  | issue s k rest _ ih =>
    obtain ⟨a, b, sum, callbacks, rests⟩ := hp
    exact ⟨a, b, sum, callbacks, ih rests⟩
  | act a k ih =>
    simp only [Prog.Costs, Prog.recover] at hp ⊢
    split at hp
    · rename_i marked
      obtain ⟨l, sum, next⟩ := hp
      rw [if_pos marked]
      exact ⟨l, sum, ih true next⟩
    · rename_i plain
      rw [if_neg plain]
      exact fun b => ih b (hp b)

/-- A program without marked statements and actions costs nothing. -/
theorem Prog.costs_zero {p : Prog S R A} (issues : p.Issues (fun s => stmts c s = false))
    (plain : p.Acts (fun a => acts c a = false)) : p.Costs stmts acts c 0 0 := by
  induction p with
  | done => trivial
  | throw => exact Nat.le_refl 0
  | issue s k rest ihk ih =>
    exact ⟨0, 0, by simp [issues.1], fun r => ihk r (issues.2.1 r) (plain.1 r),
      ih issues.2.2 plain.2⟩
  | act a k ih =>
    simp only [Prog.Costs, plain.1, Bool.false_eq_true, if_false]
    exact fun b => ih b (issues b) (plain.2 b)

/-- Where no statement is marked and no action, nothing is owed. -/
theorem owes_nothing {φ : S → Prop} {p : Pending S R A C} (first : φ p.stmt)
    (later : ∀ r, (p.k r).Issues φ) (unmarked : ∀ s, φ s → stmts p.ctx s = false)
    (plain : ∀ a, acts p.ctx a = false) : Owes stmts acts 0 p :=
  ⟨0, by simp [unmarked _ first], fun r =>
    Prog.costs_zero ((later r).mono unmarked) (Prog.acts_of_forall plain _)⟩

variable {M : Machine S R A C W Q D} {ok : C → S → Prop} {count : W → Nat}

theorem enter_quota (metered : Metered stmts acts M ok count) (p : Prog S R A) {m : Nat}
    (σ : Config S R A C W) (costs : p.Costs stmts acts c t m)
    (weighed : Weighed (Owes stmts acts) σ.pending n) (total : count σ.world + m + n ≤ 1) :
    Quota stmts acts count (enter M c p σ) := by
  induction p generalizing σ m n with
  | done => exact ⟨n, weighed, by simp only [enter]; omega⟩
  | throw => exact ⟨n, weighed, by simp only [enter]; omega⟩
  | issue s k rest _ ih =>
    obtain ⟨a, b, sum, callbacks, rests⟩ := costs
    exact ih ⟨σ.world, σ.pending ++ [⟨c, s, k⟩]⟩ rests
      (weighed.append (.single ⟨a, Nat.le_refl _, callbacks⟩))
      (by change count σ.world + b + (n + ((stmts c s).toNat + a)) ≤ 1; omega)
  | act a k ih =>
    have counted := metered.perform c a σ.world
    simp only [Prog.Costs] at costs
    split at costs
    · rename_i marked
      obtain ⟨l, sum, next⟩ := costs
      simp only [marked, Bool.toNat_true] at counted
      have taken := metered.first marked (show count σ.world = 0 by omega)
      refine ih _ ⟨_, σ.pending⟩ (by rw [taken]; exact next) weighed ?_
      change count (M.perform c a σ.world).2 + l + n ≤ 1
      omega
    · rename_i plain
      simp only [Bool.not_eq_true] at plain
      simp only [plain, Bool.toNat_false] at counted
      refine ih _ ⟨_, σ.pending⟩ (costs _) weighed ?_
      change count (M.perform c a σ.world).2 + m + n ≤ 1
      omega

/-- A settlement passes what a statement owed on to the count and to its callback. -/
theorem settle_quota (metered : Metered stmts acts M ok count) (i : Nat) (lost : Bool)
    (σ : Config S R A C W) (bounded : ∀ p ∈ σ.pending, ok p.ctx p.stmt)
    (quota : Quota stmts acts count σ) : Quota stmts acts count (settle M i lost σ) := by
  obtain ⟨n, weighed, total⟩ := quota
  rcases settle_cases M i lost σ with same | ⟨p, hp, hs⟩
  · rw [same]
    exact ⟨n, weighed, total⟩
  obtain ⟨a, l, ⟨m, sum, callbacks⟩, others, hn⟩ := weighed.erase hp
  rw [hs]
  have outcome : ∀ o, o = none ∨ o = M.exec p.ctx p.stmt σ.world →
      Quota stmts acts count (deliver M p (σ.pending.eraseIdx i) σ.world o) := by
    intro o ho
    cases o with
    | none =>
      have counted := metered.refuse p.ctx p.stmt σ.world
      refine enter_quota metered (p.k none) ⟨_, _⟩ (callbacks none) others ?_
      change count (M.refuse p.ctx p.stmt σ.world) + m + l ≤ 1
      omega
    | some rw =>
      obtain ⟨r, w⟩ := rw
      have counted := metered.exec (bounded p (List.mem_of_getElem? hp))
        (ho.resolve_left (by simp)).symm
      refine enter_quota metered (p.k (some r)) ⟨_, _⟩ (callbacks (some r)) others ?_
      change count w + m + l ≤ 1
      omega
  apply outcome
  cases lost
  · exact Or.inr rfl
  · exact Or.inl rfl

end Quota

end Async
