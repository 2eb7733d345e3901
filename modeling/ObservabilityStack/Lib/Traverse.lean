import Mathlib.Data.List.Basic
import Mathlib.Tactic.Common

/-!
# A loop whose body may fail

`xs.mapM f` in `Except` stops at the first element `f` refuses. When the elements it refuses are
known, so is whether the loop stops, and what it returns when it does not.

A loop that converts the entries of a list and gives up at the first it cannot convert is of this
shape, and a parser has one for every list in its grammar. The condition `p` is what the grammar
says of an entry; with `mapM_eq` the grammar of a list is the grammar of its entries.
-/

set_option autoImplicit false

namespace ObservabilityStack
namespace Traverse

variable {α β ε : Type} {f : α → Except ε β}

/-- A body that succeeds exactly where `p` holds makes a loop that does so where all elements
    have it, and then the results are those of the body, in order. -/
theorem mapM_eq {p : α → Prop} {g : α → β}
    (h : ∀ x, (p x ∧ f x = .ok (g x)) ∨ (¬ p x ∧ ∃ e, f x = .error e)) (xs : List α) :
    ((∀ x ∈ xs, p x) ∧ xs.mapM f = .ok (xs.map g)) ∨
      ((¬ ∀ x ∈ xs, p x) ∧ ∃ e, xs.mapM f = .error e) := by
  induction xs with
  | nil => exact Or.inl ⟨by simp, rfl⟩
  | cons x xs ih =>
    rw [List.mapM_cons]
    rcases h x with ⟨hx, hok⟩ | ⟨hx, e, herr⟩
    · rw [hok]
      rcases ih with ⟨hxs, hoks⟩ | ⟨hxs, e, herrs⟩
      · rw [hoks]
        exact Or.inl ⟨List.forall_mem_cons.mpr ⟨hx, hxs⟩, rfl⟩
      · rw [herrs]
        exact Or.inr ⟨fun hall => hxs (List.forall_mem_cons.mp hall).2, e, rfl⟩
    · rw [herr]
      exact Or.inr ⟨fun hall => hx (List.forall_mem_cons.mp hall).1, e, rfl⟩

end Traverse
end ObservabilityStack
