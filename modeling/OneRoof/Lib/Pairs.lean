import Mathlib.Data.List.Dedup
import Mathlib.Data.List.Forall2
import OneRoof.Lib.Async

/-!
# Two runs side by side

A machine is started in two worlds that are alike and takes the same decisions in both.
Statements stay in flight in the same order, for the same contexts; the programs that wait
for them need not be equal, as long as alike replies make them do alike things.
-/

namespace Async

section Lists

variable {α β γ δ : Type}

/-- Two lists look the same through `f` when they do so place by place. -/
theorem map_eq_map_iff_forall₂ {f : α → β} {l l' : List α} :
    l.map f = l'.map f ↔ List.Forall₂ (fun x y => f x = f y) l l' := by
  rw [← List.forall₂_eq_eq_eq, List.forall₂_map_left_iff, List.forall₂_map_right_iff]

/-- What a list is mapped to when no element fails. -/
theorem forall₂_of_mapM {f : α → Option β} {l : List α} {l' : List β}
    (mapped : l.mapM f = some l') : List.Forall₂ (fun a b => f a = some b) l l' := by
  induction l generalizing l' with
  | nil =>
    cases mapped
    exact .nil
  | cons a l ih =>
    rw [List.mapM_cons] at mapped
    obtain ⟨b, head, mapped⟩ := Option.bind_eq_some_iff.mp mapped
    obtain ⟨rest, tail, mapped⟩ := Option.bind_eq_some_iff.mp mapped
    cases mapped
    exact .cons head (ih tail)

theorem mem_of_forall₂ {r : α → β → Prop} {l : List α} {l' : List β}
    (pairs : List.Forall₂ r l l') {b : β} (mem : b ∈ l') : ∃ a ∈ l, r a b := by
  induction pairs with
  | nil => cases mem
  | cons first _ ih =>
    rcases List.mem_cons.mp mem with rfl | tail
    · exact ⟨_, List.mem_cons_self, first⟩
    · obtain ⟨a, known, related⟩ := ih tail
      exact ⟨a, List.mem_cons_of_mem _ known, related⟩

theorem map_filter_congr {f : α → β} {p p' : α → Bool} {l l' : List α}
    (same : l.map f = l'.map f) (test : ∀ x y, f x = f y → p x = p' y) :
    (l.filter p).map f = (l'.filter p').map f := by
  rw [map_eq_map_iff_forall₂] at same ⊢
  induction same with
  | nil => exact .nil
  | @cons x y l l' first rest ih =>
    rw [List.filter_cons, List.filter_cons, test x y first]
    split
    · exact .cons first ih
    · exact ih

theorem flatMap_congr {f : α → β} {l l' : List α} (same : l.map f = l'.map f)
    {g g' : α → List γ} (each : ∀ x ∈ l, ∀ y, f x = f y → g x = g' y) :
    l.flatMap g = l'.flatMap g' := by
  rw [map_eq_map_iff_forall₂] at same
  induction same with
  | nil => rfl
  | @cons x y l l' first _ ih =>
    have rest := ih fun x' mem => each x' (List.mem_cons_of_mem x mem)
    rw [List.flatMap_cons, List.flatMap_cons, each x List.mem_cons_self y first, rest]

/-- What tells the members of a list apart keeps their repetitions. -/
theorem map_dedup [DecidableEq α] [DecidableEq β] {f : α → β} {l : List α}
    (tells : ∀ x ∈ l, ∀ y ∈ l, f x = f y → x = y) : l.dedup.map f = (l.map f).dedup := by
  induction l with
  | nil => rfl
  | cons x l ih =>
    have rest := ih fun y hy z hz =>
      tells y (List.mem_cons_of_mem x hy) z (List.mem_cons_of_mem x hz)
    by_cases again : x ∈ l
    · have mapped : f x ∈ l.map f := List.mem_map_of_mem again
      rw [List.dedup_cons_of_mem again, List.map_cons, List.dedup_cons_of_mem mapped, rest]
    · have mapped : f x ∉ l.map f := by
        intro mem
        obtain ⟨y, hy, same⟩ := List.mem_map.mp mem
        apply again
        rwa [← tells y (List.mem_cons_of_mem x hy) x List.mem_cons_self same]
      rw [List.dedup_cons_of_notMem again, List.map_cons, List.map_cons,
        List.dedup_cons_of_notMem mapped, rest]

theorem forall₂_eraseIdx {rel : α → β → Prop} {l : List α} {l' : List β}
    (h : List.Forall₂ rel l l') (i : Nat) : List.Forall₂ rel (l.eraseIdx i) (l'.eraseIdx i) := by
  induction h generalizing i with
  | nil => exact .nil
  | cons first rest ih =>
    cases i with
    | zero => exact rest
    | succ i => exact .cons first (ih i)

theorem forall₂_getElem? {rel : α → β → Prop} {l : List α} {l' : List β}
    (h : List.Forall₂ rel l l') (i : Nat) : Option.Rel rel l[i]? l'[i]? := by
  induction h generalizing i with
  | nil => exact .none
  | cons first rest ih =>
    cases i with
    | zero => exact .some first
    | succ i => exact ih i

theorem rel_bind {rel : α → β → Prop} {rel' : γ → δ → Prop} {x : Option α}
    {y : Option β} {f : α → Option γ} {g : β → Option δ} (first : Option.Rel rel x y)
    (next : ∀ b c, rel b c → Option.Rel rel' (f b) (g c)) :
    Option.Rel rel' (x.bind f) (y.bind g) := by
  cases first with
  | none => exact .none
  | some same => exact next _ _ same

theorem rel_bind_same {rel' : γ → δ → Prop} {x : Option α} {f : α → Option γ}
    {g : α → Option δ} (next : ∀ b ∈ x, Option.Rel rel' (f b) (g b)) :
    Option.Rel rel' (x.bind f) (x.bind g) := by
  cases x with
  | none => exact .none
  | some b => exact next b rfl

end Lists

variable {S : Type} {R : S → Type} {A C W Q D : Type}

/-- What counts as alike: two replies to one statement, two actions, two worlds. -/
structure Likeness (S : Type) (R : S → Type) (A C W : Type) where
  reply : C → (s : S) → R s → R s → Prop
  action : A → A → Prop
  world : W → W → Prop

namespace Prog

/-- The same statements and alike actions, now and after alike replies. -/
inductive Alike (L : Likeness S R A C W) (c : C) : Prog S R A → Prog S R A → Prop
  | done : Alike L c done done
  | throw : Alike L c throw throw
  | issue {s : S} {k k' : Option (R s) → Prog S R A} {rest rest' : Prog S R A}
      (lost : Alike L c (k none) (k' none))
      (answered : ∀ r r', L.reply c s r r' → Alike L c (k (some r)) (k' (some r')))
      (more : Alike L c rest rest') : Alike L c (issue s k rest) (issue s k' rest')
  | act {a a' : A} {k k' : Bool → Prog S R A} (same : L.action a a')
      (more : ∀ b, Alike L c (k b) (k' b)) : Alike L c (act a k) (act a' k')

variable {L : Likeness S R A C W} {c : C} {p p' q q' : Prog S R A}

theorem Alike.recover (hp : p.Alike L c p') (hq : q.Alike L c q') :
    (p.recover q).Alike L c (p'.recover q') := by
  induction hp with
  | done => exact .done
  | throw => exact hq
  | issue lost answered _ _ _ ih => exact .issue lost answered ih
  | act same _ ih => exact .act same ih

theorem Alike.andThen (hp : p.Alike L c p') (hq : q.Alike L c q') :
    (p.andThen q).Alike L c (p'.andThen q') := by
  induction hp with
  | done => exact hq
  | throw => exact .throw
  | issue lost answered _ _ _ ih => exact .issue lost answered ih
  | act same _ ih => exact .act same ih

end Prog

/-- Two programs that wait for one statement. -/
inductive Pending.Alike (L : Likeness S R A C W) : Pending S R A C → Pending S R A C → Prop
  | intro {c : C} {s : S} {k k' : Option (R s) → Prog S R A}
      (lost : (k none).Alike L c (k' none))
      (answered : ∀ r r', L.reply c s r r' → (k (some r)).Alike L c (k' (some r'))) :
      Pending.Alike L ⟨c, s, k⟩ ⟨c, s, k'⟩

structure Config.Alike (L : Likeness S R A C W) (σ σ' : Config S R A C W) : Prop where
  world : L.world σ.world σ'.world
  pending : List.Forall₂ (Pending.Alike L) σ.pending σ'.pending

/-- Alike outcomes of a statement. -/
def Likeness.Outcome (L : Likeness S R A C W) (c : C) (s : S) :
    Option (R s × W) → Option (R s × W) → Prop :=
  Option.Rel fun x x' => L.reply c s x.1 x'.1 ∧ L.world x.2 x'.2

/-- Alike actions report the same and leave alike worlds; so does a failure. -/
structure Likeness.Respects (L : Likeness S R A C W) (M : Machine S R A C W Q D) : Prop where
  perform : ∀ {c a a' w w'}, L.action a a' → L.world w w' →
    (M.perform c a w).1 = (M.perform c a' w').1 ∧
      L.world (M.perform c a w).2 (M.perform c a' w').2
  refuse : ∀ {c s w w'}, L.world w w' → L.world (M.refuse c s w) (M.refuse c s w')

section Steps

variable {M : Machine S R A C W Q D} {L : Likeness S R A C W} {σ σ' : Config S R A C W}

theorem enter_alike (respects : L.Respects M) {c : C} {p p' : Prog S R A}
    (alike : p.Alike L c p') (same : σ.Alike L σ') :
    (enter M c p σ).Alike L (enter M c p' σ') := by
  induction alike generalizing σ σ' with
  | done => exact same
  | throw => exact same
  | issue lost answered _ _ _ ih =>
    apply ih
    exact ⟨same.world, List.rel_append same.pending (.cons (.intro lost answered) .nil)⟩
  | @act a a' k k' alike _ ih =>
    obtain ⟨report, world⟩ := respects.perform (c := c) alike same.world
    simp only [enter, report]
    exact ih _ ⟨world, same.pending⟩

/-- A settlement takes the same statement in both, or nothing. -/
theorem settle_alike (respects : L.Respects M) (i : Nat) (lost : Bool) (same : σ.Alike L σ')
    (exec : lost = false → ∀ p, σ.pending[i]? = some p → L.Outcome p.ctx p.stmt
      (M.exec p.ctx p.stmt σ.world) (M.exec p.ctx p.stmt σ'.world)) :
    (settle M i lost σ).Alike L (settle M i lost σ') := by
  have rest := forall₂_eraseIdx same.pending i
  have found := forall₂_getElem? same.pending i
  generalize hp : σ.pending[i]? = o at found
  generalize hp' : σ'.pending[i]? = o' at found
  cases found with
  | none => simpa only [settle, hp, hp'] using same
  | some waits =>
    cases waits with
    | @intro c s k k' lost_alike answered =>
      have failed : (enter M c (k none) ⟨M.refuse c s σ.world, σ.pending.eraseIdx i⟩).Alike L
          (enter M c (k' none) ⟨M.refuse c s σ'.world, σ'.pending.eraseIdx i⟩) := by
        exact enter_alike respects lost_alike ⟨respects.refuse same.world, rest⟩
      simp only [settle, hp, hp']
      cases lost with
      | true => exact failed
      | false =>
        have outcome := exec rfl _ hp
        simp only [Bool.false_eq_true, if_false]
        generalize M.exec c s σ.world = x, M.exec c s σ'.world = x' at outcome ⊢
        cases outcome with
        | none => exact failed
        | some both => exact enter_alike respects (answered _ _ both.1) ⟨both.2, rest⟩

/-- What one step keeps alike stays alike. -/
theorem run_alike {meets : Config S R A C W → Label Q D → Prop}
    (kept : ∀ σ σ' l, meets σ l → σ.Alike L σ' → (step M l σ).Alike L (step M l σ'))
    {ls : List (Label Q D)} (along : Along M meets ls σ) (same : σ.Alike L σ') :
    (run M ls σ).Alike L (run M ls σ') := by
  induction ls generalizing σ σ' with
  | nil => exact same
  | cons l ls ih => exact ih along.2 (kept σ σ' l along.1 same)

end Steps

end Async
