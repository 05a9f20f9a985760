import Mathlib.Data.List.Forall2
import Mathlib.Data.List.Sublists

/-!
# Lists that grow

Two ways in which a list may become another one. In a grown list every old element is still
at its place, perhaps changed in a way that is allowed, and others have come behind. In a
thinned list the old elements may have gone, but those that are left are unchanged and in
their order, and whatever is behind them is new. Both can be put together step by step.
-/

namespace Growth

variable {α : Type} {rel : α → α → Prop} {fresh newer : α → Prop} {l l' l'' : List α}

/-- The old elements are still there, each related to what it was. -/
def Grown (rel : α → α → Prop) (l l' : List α) : Prop :=
  ∃ old new, l' = old ++ new ∧ List.Forall₂ rel l old

/-- Of the old elements some are left as they were, and all others are fresh. -/
def Thinned (fresh : α → Prop) (l l' : List α) : Prop :=
  ∃ old new, l' = old ++ new ∧ old.Sublist l ∧ ∀ a ∈ new, fresh a

theorem Grown.refl (same : ∀ a, rel a a) (l : List α) : Grown rel l l :=
  ⟨l, [], (List.append_nil l).symm, List.forall₂_same.mpr fun a _ => same a⟩

/-- The front of a list that is related to another one, in two steps. -/
theorem exists_front (chain : ∀ a b c, rel a b → rel b c → rel a c) {old new : List α}
    (kept : List.Forall₂ rel l old) (kept' : List.Forall₂ rel (old ++ new) l'') :
    ∃ front rest, l'' = front ++ rest ∧ List.Forall₂ rel l front := by
  induction kept generalizing l'' with
  | nil => exact ⟨[], l'', rfl, .nil⟩
  | cons first _ ih =>
    cases kept' with
    | cons second tail =>
      obtain ⟨front, rest, rfl, each⟩ := ih tail
      exact ⟨_ :: front, rest, rfl, .cons (chain _ _ _ first second) each⟩

theorem Grown.trans (chain : ∀ a b c, rel a b → rel b c → rel a c) (first : Grown rel l l')
    (second : Grown rel l' l'') : Grown rel l l'' := by
  obtain ⟨old, new, rfl, kept⟩ := first
  obtain ⟨old', new', rfl, kept'⟩ := second
  obtain ⟨front, rest, rfl, each⟩ := exists_front chain kept kept'
  exact ⟨front, rest ++ new', List.append_assoc _ _ _, each⟩

theorem Grown.append (same : ∀ a, rel a a) (l new : List α) : Grown rel l (l ++ new) :=
  ⟨l, new, rfl, List.forall₂_same.mpr fun a _ => same a⟩

/-- Every element is changed as it is allowed. -/
theorem Grown.map {f : α → α} (changes : ∀ a, rel a (f a)) (l : List α) :
    Grown rel l (l.map f) := by
  refine ⟨l.map f, [], (List.append_nil _).symm, ?_⟩
  rw [List.forall₂_map_right_iff]
  exact List.forall₂_same.mpr fun a _ => changes a

theorem Thinned.refl (fresh : α → Prop) (l : List α) : Thinned fresh l l :=
  ⟨l, [], (List.append_nil l).symm, List.Sublist.refl l, fun _ mem => absurd mem List.not_mem_nil⟩

theorem Thinned.trans (weaker : ∀ a, newer a → fresh a) (first : Thinned fresh l l')
    (second : Thinned newer l' l'') : Thinned fresh l l'' := by
  obtain ⟨old, new, rfl, kept, came⟩ := first
  obtain ⟨old', new', rfl, kept', came'⟩ := second
  obtain ⟨left, right, rfl, fromOld, fromNew⟩ := List.sublist_append_iff.mp kept'
  refine ⟨left, right ++ new', List.append_assoc _ _ _, fromOld.trans kept, fun a mem => ?_⟩
  rcases List.mem_append.mp mem with mem | mem
  · exact came a (fromNew.subset mem)
  · exact weaker a (came' a mem)

theorem Thinned.append {new : List α} (came : ∀ a ∈ new, fresh a) (l : List α) :
    Thinned fresh l (l ++ new) :=
  ⟨l, new, rfl, List.Sublist.refl l, came⟩

theorem Thinned.filter (fresh : α → Prop) (stays : α → Bool) (l : List α) :
    Thinned fresh l (l.filter stays) :=
  ⟨l.filter stays, [], (List.append_nil _).symm, List.filter_sublist,
    fun _ mem => absurd mem List.not_mem_nil⟩

end Growth
