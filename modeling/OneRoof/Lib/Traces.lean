import Mathlib.Data.List.Basic

/-!
# Runs of a step function

A system that takes one move after another. Conditions on moves are conditions on the state
before the move.
-/

namespace Traces

variable {S M : Type} (step : M → S → S)

def run (ms : List M) (s : S) : S := ms.foldl (fun s m => step m s) s

theorem run_cons (m : M) (ms : List M) (s : S) : run step (m :: ms) s = run step ms (step m s) :=
  rfl

theorem run_append (ms ms' : List M) (s : S) :
    run step (ms ++ ms') s = run step ms' (run step ms s) :=
  List.foldl_append

/-- Every move of a run meets a condition on the state before it. -/
def Along (meets : S → M → Prop) : List M → S → Prop
  | [], _ => True
  | m :: ms, s => meets s m ∧ Along meets ms (step m s)

instance decidableAlong (meets : S → M → Prop) [∀ s m, Decidable (meets s m)] :
    (ms : List M) → (s : S) → Decidable (Along step meets ms s)
  | [], _ => isTrue trivial
  | m :: ms, s =>
    have := decidableAlong meets ms (step m s)
    inferInstanceAs (Decidable (meets s m ∧ Along step meets ms (step m s)))

variable {step} {meets : S → M → Prop} {ms : List M} {s : S}

theorem along_of_forall {allowed : M → Prop} (all : ∀ m ∈ ms, allowed m) (s : S) :
    Along step (fun _ m => allowed m) ms s := by
  induction ms generalizing s with
  | nil => trivial
  | cons m ms ih =>
    exact ⟨all m List.mem_cons_self, ih (fun m' hm => all m' (List.mem_cons_of_mem m hm)) _⟩

/-- What a check of every move gives. -/
theorem Along.mono {gives : S → M → Prop} (enough : ∀ s m, meets s m → gives s m)
    (along : Along step meets ms s) : Along step gives ms s := by
  induction ms generalizing s with
  | nil => trivial
  | cons m ms ih => exact ⟨enough s m along.1, ih along.2⟩

theorem Along.and {meets' : S → M → Prop} (along : Along step meets ms s)
    (along' : Along step meets' ms s) : Along step (fun s m => meets s m ∧ meets' s m) ms s := by
  induction ms generalizing s with
  | nil => trivial
  | cons m ms ih => exact ⟨⟨along.1, along'.1⟩, ih along.2 along'.2⟩

/-- What every move that meets the condition keeps holds after the run. -/
theorem run_invariant (inv : S → Prop) (kept : ∀ s m, meets s m → inv s → inv (step m s))
    (along : Along step meets ms s) (start : inv s) : inv (run step ms s) := by
  induction ms generalizing s with
  | nil => exact start
  | cons m ms ih => exact ih along.2 (kept s m along.1 start)

end Traces
