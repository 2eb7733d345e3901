import Mathlib.Data.List.Sort
import Mathlib.Order.Basic

/-!
# Sorting by a key, and ranks

`sortBy key xs` is the stable sort of `xs` by `key`: a permutation in the order of the keys that
leaves elements of one key in the order they had (`filter_sortBy`). Any stable sort returns the
same list; this one is structurally recursive, so it can be evaluated.

`HasRank r xs v` is what it means for `v` to be at rank `r` of `xs`, counting from 1, without
sorting anything. There is at most one such value, it grows with the rank, and it is the element
of the sorted list at the place `r - 1`.

The second half does not depend on the first, and that is on purpose. To say that the element at
place `r - 1` of a sorted list is a quantile is to say how it is computed. `HasRank` says by
counting what the computation is for, and it can be checked of a value without knowing where the
value came from.
-/

set_option autoImplicit false

namespace ObservabilityStack
namespace Sorting

variable {α κ : Type*} [LinearOrder κ]

/-! ## Stable sorting

The order of elements with one key is kept, which a test of the result can see: rows with the same
key are printed in the order in which they were found. -/

section sortBy

variable (key : α → κ)

/-- `sorted(xs, key=key)`. -/
def sortBy (xs : List α) : List α := xs.insertionSort fun a b => key a ≤ key b

theorem sortBy_perm (xs : List α) : (sortBy key xs).Perm xs := List.perm_insertionSort _ xs

@[simp] theorem length_sortBy (xs : List α) : (sortBy key xs).length = xs.length :=
  (sortBy_perm key xs).length_eq

@[simp] theorem mem_sortBy {xs : List α} {a : α} : a ∈ sortBy key xs ↔ a ∈ xs :=
  (sortBy_perm key xs).mem_iff

theorem pairwise_sortBy (xs : List α) :
    (sortBy key xs).Pairwise fun a b => key a ≤ key b := by
  have total : Std.Total fun a b : α => key a ≤ key b := ⟨fun a b => le_total (key a) (key b)⟩
  have trans : IsTrans α fun a b => key a ≤ key b := ⟨fun _ _ _ hab hbc => hab.trans hbc⟩
  exact List.pairwise_insertionSort _ xs

/-- **Stability.** The elements of one key are in the order they had. -/
theorem filter_sortBy (k : κ) (xs : List α) :
    (sortBy key xs).filter (fun a => key a = k) = xs.filter fun a => key a = k := by
  have hsame : (xs.filter fun a => key a = k).Pairwise fun a b => key a ≤ key b := by
    apply List.pairwise_of_forall_mem_list
    intro a ha b hb
    have hka : key a = k := by simpa using (List.mem_filter.mp ha).2
    have hkb : key b = k := by simpa using (List.mem_filter.mp hb).2
    rw [hka, hkb]
  have hsub : List.Sublist (xs.filter fun a => key a = k)
      ((sortBy key xs).filter fun a => key a = k) := by
    have hkept := (List.sublist_insertionSort hsame List.filter_sublist).filter
      fun a => decide (key a = k)
    rwa [List.filter_filter, List.filter_congr fun a _ => Bool.and_self _] at hkept
  exact (hsub.eq_of_length ((sortBy_perm key xs).symm.filter _).length_eq).symm

end sortBy

/-- In a list in the order of `f`, what `f` maps to one value stands together. -/
theorem eq_append_filter_append {f : α → κ} {xs : List α}
    (h : xs.Pairwise fun a b => f a ≤ f b) (k : κ) :
    xs = xs.filter (fun a => f a < k) ++ xs.filter (fun a => f a = k) ++
      xs.filter fun a => k < f a := by
  induction xs with
  | nil => rfl
  | cons x xs ih =>
    obtain ⟨hx, hxs⟩ := List.pairwise_cons.mp h
    have hrest := ih hxs
    -- Nothing that is larger than the head may come before what equals it.
    have hnone : ∀ p : κ → Bool, (∀ b, f x ≤ b → p b = false) →
        xs.filter (fun a => p (f a)) = [] := by
      intro p hp
      exact List.filter_eq_nil_iff.mpr fun a ha => by simp [hp (f a) (hx a ha)]
    rcases lt_trichotomy (f x) k with hlt | heq | hgt
    · simp only [List.filter_cons, hlt, hlt.ne, not_lt.mpr hlt.le, decide_true, decide_false,
        if_true, Bool.false_eq_true, if_false, List.cons_append]
      exact congrArg (x :: ·) hrest
    · have hbelow := hnone (fun b => b < k) (by simp [heq])
      simp only [List.filter_cons, heq, lt_irrefl, decide_true, decide_false, if_true,
        Bool.false_eq_true, if_false]
      rw [hbelow] at hrest ⊢
      exact congrArg (x :: ·) hrest
    · have hbelow := hnone (fun b => b < k) (by
        intro b hb
        simpa using hgt.le.trans hb)
      have hequal := hnone (fun b => b = k) (by
        intro b hb
        simpa using (hgt.trans_le hb).ne')
      simp only [List.filter_cons, hgt, hgt.ne', not_lt.mpr hgt.le, decide_true, decide_false,
        if_true, Bool.false_eq_true, if_false]
      rw [hbelow, hequal] at hrest ⊢
      exact congrArg (x :: ·) hrest

/-! ## Ranks

Elements that are equal have several ranks, and a rank has one element. So `HasRank` is a relation,
with uniqueness on one side. -/

/-- `sorted(xs)`. -/
def sorted (xs : List κ) : List κ := sortBy id xs

/-- The sorted list does not depend on the order the elements came in. -/
theorem sorted_eq_of_perm {xs ys : List κ} (h : xs.Perm ys) : sorted xs = sorted ys := by
  have hperm : (sorted xs).Perm (sorted ys) :=
    (sortBy_perm id xs).trans (h.trans (sortBy_perm id ys).symm)
  exact hperm.eq_of_sortedLE (pairwise_sortBy id xs).sortedLE (pairwise_sortBy id ys).sortedLE

/-- `v` is the element of rank `r`: at least `r` elements are at most `v`, and fewer than `r`
    are below it. -/
structure HasRank (r : ℕ) (xs : List κ) (v : κ) : Prop where
  mem : v ∈ xs
  le : r ≤ xs.countP fun x => x ≤ v
  lt : xs.countP (fun x => x < v) < r

theorem HasRank.mono {r s : ℕ} {xs : List κ} {v w : κ} (hv : HasRank r xs v)
    (hw : HasRank s xs w) (hrs : r ≤ s) : v ≤ w := by
  by_contra hlt
  push Not at hlt
  have hcount : xs.countP (fun x => x ≤ w) ≤ xs.countP fun x => x < v := by
    apply List.countP_mono_left
    intro x _ hx
    exact decide_eq_true ((of_decide_eq_true hx).trans_lt hlt)
  have hle := hw.le
  have hlt := hv.lt
  omega

theorem HasRank.unique {r : ℕ} {xs : List κ} {v w : κ} (hv : HasRank r xs v)
    (hw : HasRank r xs w) : v = w :=
  le_antisymm (hv.mono hw le_rfl) (hw.mono hv le_rfl)

theorem HasRank.perm {r : ℕ} {xs ys : List κ} {v : κ} (h : HasRank r xs v) (hp : xs.Perm ys) :
    HasRank r ys v :=
  ⟨hp.mem_iff.mp h.mem, (hp.countP_eq _) ▸ h.le, (hp.countP_eq _) ▸ h.lt⟩

/-- The element of the first rank is the smallest… -/
theorem HasRank.first {xs : List κ} {v : κ} (h : HasRank 1 xs v) : ∀ x ∈ xs, v ≤ x := by
  intro x hx
  have hzero : xs.countP (fun y => y < v) = 0 := Nat.lt_one_iff.mp h.lt
  simpa using List.countP_eq_zero.mp hzero x hx

/-- …and that of the last rank the largest. -/
theorem HasRank.last {xs : List κ} {v : κ} (h : HasRank xs.length xs v) : ∀ x ∈ xs, x ≤ v := by
  intro x hx
  have hall : xs.countP (fun y => y ≤ v) = xs.length :=
    le_antisymm List.countP_le_length h.le
  simpa using List.countP_eq_length.mp hall x hx

/-- In a list in order, the element at a place has the rank of that place. -/
theorem hasRank_getElem {ys : List κ} (h : ys.Pairwise (· ≤ ·)) {i : ℕ} (hi : i < ys.length) :
    HasRank (i + 1) ys ys[i] := by
  have hsorted := h.sortedLE
  refine ⟨List.getElem_mem hi, ?_, ?_⟩
  · -- Everything up to the place is at most the element there.
    have hupto : (ys.take (i + 1)).countP (fun x => x ≤ ys[i]) = i + 1 := by
      rw [List.countP_eq_length.mpr, List.length_take, min_eq_left hi]
      intro x hx
      obtain ⟨j, hj, rfl⟩ := List.mem_iff_getElem.mp hx
      rw [List.length_take] at hj
      rw [List.getElem_take]
      exact decide_eq_true (hsorted.getElem_le_getElem_of_le (by omega))
    exact hupto.symm.le.trans (List.take_sublist _ _).countP_le
  · -- And from there on nothing is below it.
    have hfrom : (ys.drop i).countP (fun x => x < ys[i]) = 0 := by
      rw [List.countP_eq_zero]
      intro x hx
      obtain ⟨j, hj, rfl⟩ := List.mem_iff_getElem.mp hx
      rw [List.getElem_drop]
      simpa using hsorted.getElem_le_getElem_of_le (Nat.le_add_right i j)
    calc ys.countP (fun x => x < ys[i])
        = (ys.take i).countP (fun x => x < ys[i]) + (ys.drop i).countP fun x => x < ys[i] := by
          rw [← List.countP_append, List.take_append_drop]
      _ = (ys.take i).countP fun x => x < ys[i] := by rw [hfrom, Nat.add_zero]
      _ ≤ (ys.take i).length := List.countP_le_length
      _ < i + 1 := by rw [List.length_take]; omega

/-- The element of the sorted list at a place has the rank of that place. -/
theorem hasRank_sorted {xs : List κ} {i : ℕ} (hi : i < (sorted xs).length) :
    HasRank (i + 1) xs (sorted xs)[i] :=
  (hasRank_getElem (pairwise_sortBy id xs) hi).perm (sortBy_perm id xs)

end Sorting
end ObservabilityStack
