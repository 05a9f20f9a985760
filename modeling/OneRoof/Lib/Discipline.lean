import OneRoof.Lib.Async

/-!
# A rely/guarantee rule for programs with callbacks

A discipline names the worlds that are good, an order on worlds that every
step climbs, what a context may issue and what it may perform. A program is
safe when it stays inside the discipline whatever later good world each of its
callbacks meets. Safe programs keep every world of every run good, and what
was allowed when a statement was issued is still allowed when it settles.
-/

namespace Async

variable {S : Type} {R : S → Type} {A C W Q D : Type}

structure Discipline (M : Machine S R A C W Q D) where
  Good : W → Prop
  Le : W → W → Prop
  Allowed : C → S → W → Prop
  Permit : C → A → W → Prop
  refl : ∀ w, Le w w
  trans : ∀ {u v w}, Le u v → Le v w → Le u w
  mono : ∀ {c s w w'}, Le w w' → Allowed c s w → Allowed c s w'
  exec_good : ∀ {c s w r w'}, Good w → Allowed c s w →
    M.exec c s w = some (r, w') → Good w' ∧ Le w w'
  refuse_good : ∀ {c s w}, Good w → Good (M.refuse c s w) ∧ Le w (M.refuse c s w)
  perform_good : ∀ {c a w}, Good w → Permit c a w →
    Good (M.perform c a w).2 ∧ Le w (M.perform c a w).2

namespace Discipline

variable {M : Machine S R A C W Q D} (𝒟 : Discipline M)

/-- The callbacks of an `issue` are judged in every good world from here on. -/
def Safe (c : C) : Prog S R A → W → Prop
  | .done, _ => True
  | .throw, _ => True
  | .issue s k rest, w => 𝒟.Allowed c s w ∧
      (∀ w', 𝒟.Le w w' → 𝒟.Good w' →
        (∀ r w'', M.exec c s w' = some (r, w'') → Safe c (k (some r)) w'') ∧
        Safe c (k none) (M.refuse c s w')) ∧ Safe c rest w
  | .act a k, w => 𝒟.Permit c a w ∧
      Safe c (k (M.perform c a w).1) (M.perform c a w).2

variable {𝒟}

theorem Safe.recover {c : C} {p h : Prog S R A} {w : W} (good : 𝒟.Good w)
    (safe : 𝒟.Safe c p w) (caught : ∀ w', 𝒟.Le w w' → 𝒟.Good w' → 𝒟.Safe c h w') :
    𝒟.Safe c (p.recover h) w := by
  induction p generalizing w with
  | done => trivial
  | throw => exact caught w (𝒟.refl w) good
  | issue s k rest _ ih => exact ⟨safe.1, safe.2.1, ih good safe.2.2 caught⟩
  | act a k ih =>
    have hw := 𝒟.perform_good good safe.1
    exact ⟨safe.1, ih _ hw.1 safe.2 fun w' later => caught w' (𝒟.trans hw.2 later)⟩

theorem Safe.andThen {c : C} {p q : Prog S R A} {w : W} (good : 𝒟.Good w)
    (safe : 𝒟.Safe c p w) (next : ∀ w', 𝒟.Le w w' → 𝒟.Good w' → 𝒟.Safe c q w') :
    𝒟.Safe c (p.andThen q) w := by
  induction p generalizing w with
  | done => exact next w (𝒟.refl w) good
  | throw => trivial
  | issue s k rest _ ih => exact ⟨safe.1, safe.2.1, ih good safe.2.2 next⟩
  | act a k ih =>
    have hw := 𝒟.perform_good good safe.1
    exact ⟨safe.1, ih _ hw.1 safe.2 fun w' later => next w' (𝒟.trans hw.2 later)⟩

/-- A statement and its callback, judged in the good worlds from here on. -/
theorem Safe.issue {c : C} {s : S} {k : Option (R s) → Prog S R A} {rest : Prog S R A} {w : W}
    (allowed : 𝒟.Allowed c s w) (rests : 𝒟.Safe c rest w)
    (fails : ∀ w', 𝒟.Le w w' → 𝒟.Good w' → 𝒟.Safe c (k none) w')
    (completes : ∀ w' r w'', 𝒟.Le w w' → 𝒟.Good w' → M.exec c s w' = some (r, w'') →
      𝒟.Le w w'' → 𝒟.Good w'' → 𝒟.Safe c (k (some r)) w'') :
    𝒟.Safe c (.issue s k rest) w := by
  refine ⟨allowed, fun w' later good => ⟨fun r w'' he => ?_, ?_⟩, rests⟩
  · obtain ⟨good', later'⟩ := 𝒟.exec_good good (𝒟.mono later allowed) he
    exact completes w' r w'' later good he (𝒟.trans later later') good'
  · obtain ⟨good', later'⟩ := 𝒟.refuse_good (c := c) (s := s) good
    exact fails _ (𝒟.trans later later') good'

variable (𝒟)

/-- A statement in flight is allowed and its callback is safe from here on. -/
def Waits (p : Pending S R A C) (w : W) : Prop :=
  𝒟.Allowed p.ctx p.stmt w ∧ ∀ w', 𝒟.Le w w' → 𝒟.Good w' →
    (∀ r w'', M.exec p.ctx p.stmt w' = some (r, w'') → 𝒟.Safe p.ctx (p.k (some r)) w'') ∧
    𝒟.Safe p.ctx (p.k none) (M.refuse p.ctx p.stmt w')

def Holds (σ : Config S R A C W) : Prop :=
  𝒟.Good σ.world ∧ ∀ p ∈ σ.pending, 𝒟.Waits p σ.world

variable {𝒟}

theorem Waits.mono {p : Pending S R A C} {w w' : W} (h : 𝒟.Waits p w)
    (later : 𝒟.Le w w') : 𝒟.Waits p w' :=
  ⟨𝒟.mono later h.1, fun v hv hg => h.2 v (𝒟.trans later hv) hg⟩

theorem Holds.later {σ : Config S R A C W} (h : 𝒟.Holds σ) {w : W}
    (later : 𝒟.Le σ.world w) (good : 𝒟.Good w) : 𝒟.Holds ⟨w, σ.pending⟩ :=
  ⟨good, fun p hp => (h.2 p hp).mono later⟩

/-- Running a safe program keeps the discipline and climbs the order. -/
theorem enter_holds (c : C) (p : Prog S R A) (σ : Config S R A C W) (h : 𝒟.Holds σ)
    (safe : 𝒟.Safe c p σ.world) :
    𝒟.Holds (enter M c p σ) ∧ 𝒟.Le σ.world (enter M c p σ).world := by
  induction p generalizing σ with
  | done => exact ⟨h, 𝒟.refl _⟩
  | throw => exact ⟨h, 𝒟.refl _⟩
  | issue s k rest _ ih =>
    obtain ⟨allowed, callbacks, safeRest⟩ := safe
    refine ih ⟨σ.world, σ.pending ++ [⟨c, s, k⟩]⟩ ⟨h.1, ?_⟩ safeRest
    intro q hq
    rcases List.mem_append.mp hq with old | new
    · exact h.2 q old
    · rw [List.mem_singleton.mp new]
      exact ⟨allowed, callbacks⟩
  | act a k ih =>
    obtain ⟨permit, next⟩ := safe
    have hw := 𝒟.perform_good h.1 permit
    obtain ⟨hold, later⟩ := ih _ ⟨_, σ.pending⟩ (h.later hw.2 hw.1) next
    exact ⟨hold, 𝒟.trans hw.2 later⟩

theorem settle_holds (i : Nat) (lost : Bool) (σ : Config S R A C W) (h : 𝒟.Holds σ) :
    𝒟.Holds (settle M i lost σ) ∧ 𝒟.Le σ.world (settle M i lost σ).world := by
  rcases settle_cases M i lost σ with same | ⟨p, hp, hs⟩
  · rw [same]
    exact ⟨h, 𝒟.refl _⟩
  have waits := h.2 p (List.mem_of_getElem? hp)
  have others : ∀ q ∈ σ.pending.eraseIdx i, 𝒟.Waits q σ.world :=
    fun q hq => h.2 q (List.mem_of_mem_eraseIdx hq)
  rw [hs]
  have outcome : ∀ o, o = none ∨ o = M.exec p.ctx p.stmt σ.world →
      𝒟.Holds (deliver M p (σ.pending.eraseIdx i) σ.world o) ∧
      𝒟.Le σ.world (deliver M p (σ.pending.eraseIdx i) σ.world o).world := by
    intro o ho
    cases o with
    | none =>
      have hw := 𝒟.refuse_good (c := p.ctx) (s := p.stmt) h.1
      obtain ⟨hold, later⟩ := enter_holds p.ctx (p.k none) ⟨_, σ.pending.eraseIdx i⟩
        ⟨hw.1, fun q hq => (others q hq).mono hw.2⟩ (waits.2 σ.world (𝒟.refl _) h.1).2
      exact ⟨hold, 𝒟.trans hw.2 later⟩
    | some rw =>
      obtain ⟨r, w⟩ := rw
      have he : M.exec p.ctx p.stmt σ.world = some (r, w) :=
        (ho.resolve_left (by simp)).symm
      have hw := 𝒟.exec_good h.1 waits.1 he
      obtain ⟨hold, later⟩ := enter_holds p.ctx (p.k (some r)) ⟨w, σ.pending.eraseIdx i⟩
        ⟨hw.1, fun q hq => (others q hq).mono hw.2⟩
        ((waits.2 σ.world (𝒟.refl _) h.1).1 r w he)
      exact ⟨hold, 𝒟.trans hw.2 later⟩
  apply outcome
  cases lost
  · exact Or.inr rfl
  · exact Or.inl rfl

/-- Labels a discipline can follow: requests whose program is safe on arrival,
settlements, and disturbances that stay inside the discipline. -/
def Admits (𝒟 : Discipline M) : Label Q D → Prop
  | .arrive q => ∀ w, 𝒟.Good w → 𝒟.Good (M.arrive q w).2.2 ∧ 𝒟.Le w (M.arrive q w).2.2 ∧
      𝒟.Safe (M.arrive q w).1 (M.arrive q w).2.1 (M.arrive q w).2.2
  | .settle _ _ => True
  | .disturb d => ∀ w, 𝒟.Good w → 𝒟.Good (M.disturb d w) ∧ 𝒟.Le w (M.disturb d w)

theorem step_holds (l : Label Q D) (admits : 𝒟.Admits l) (σ : Config S R A C W)
    (h : 𝒟.Holds σ) : 𝒟.Holds (step M l σ) ∧ 𝒟.Le σ.world (step M l σ).world := by
  cases l with
  | arrive q =>
    obtain ⟨good, later, safe⟩ := admits σ.world h.1
    obtain ⟨hold, le⟩ := enter_holds _ _ ⟨_, σ.pending⟩ (h.later later good) safe
    exact ⟨hold, 𝒟.trans later le⟩
  | settle i lost => exact settle_holds i lost σ h
  | disturb d =>
    obtain ⟨good, later⟩ := admits σ.world h.1
    exact ⟨h.later later good, later⟩

/-- Every run of admitted labels stays inside the discipline. -/
theorem run_holds (ls : List (Label Q D)) (admits : ∀ l ∈ ls, 𝒟.Admits l)
    (σ : Config S R A C W) (h : 𝒟.Holds σ) :
    𝒟.Holds (run M ls σ) ∧ 𝒟.Le σ.world (run M ls σ).world := by
  induction ls generalizing σ with
  | nil => exact ⟨h, 𝒟.refl _⟩
  | cons l ls ih =>
    obtain ⟨hold, later⟩ := step_holds l (admits l List.mem_cons_self) σ h
    obtain ⟨hold', later'⟩ := ih (fun l' hl => admits l' (List.mem_cons_of_mem l hl)) _ hold
    exact ⟨hold', 𝒟.trans later later'⟩

theorem idle_holds {w : W} (good : 𝒟.Good w) : 𝒟.Holds ⟨w, []⟩ :=
  ⟨good, fun _ hp => absurd hp List.not_mem_nil⟩

end Discipline

end Async
