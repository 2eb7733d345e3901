import Mathlib.Data.List.Basic
import Mathlib.Data.List.Induction
import Mathlib.Order.Nat
import Mathlib.Tactic.Common

/-!
# What a walk through numbered places collects

A walk visits places in increasing order. It may stay at a place for several visits, and it may
pass places by. Every place has a key and perhaps a load, and the walk takes the load of a place
when it comes to it from a place of another key (or from none): a place cannot be told from the
one before it if their keys agree.

`collected` is what it takes, visit by visit. The main result is `collected_eq_iff`: a walk
collects the loads of all the places, each once and in order, exactly when every place with a
load is `Fresh` in it, that is, when it is visited and the place visited before it has another
key.

The walk is given by the list of its visits, and nothing is said about how it chooses the next
place. It never goes back, and that is all that is asked of it; how far it gets, and which places
it leaves out, is what the result depends on. Keys stand for an identity that is coarser than the
number of the place, such as that of an object that occurs twice.
-/

set_option autoImplicit false

namespace ObservabilityStack
namespace Visits

variable {κ α : Type*} [DecidableEq κ] (key : ℕ → κ) (load : ℕ → Option α)

/-- What the visits `is` collect, after a visit to a place of the key `last`. -/
def collected (last : Option κ) : List ℕ → List α
  | [] => []
  | i :: is =>
      (if last = some (key i) then [] else (load i).toList) ++ collected (some (key i)) is

/-- `i` is visited, and does not look like the place visited before it. -/
def Fresh (is : List ℕ) (i : ℕ) : Prop :=
  i ∈ is ∧ ∀ j ∈ is, j < i → (∀ m ∈ is, j < m → ¬ m < i) → key j ≠ key i

instance (is : List ℕ) (i : ℕ) : Decidable (Fresh key is i) :=
  inferInstanceAs (Decidable (_ ∧ ∀ j ∈ is, j < i → (∀ m ∈ is, j < m → ¬ m < i) → _))

theorem collected_snoc (last : Option κ) (is : List ℕ) (i : ℕ) :
    collected key load last (is ++ [i]) = collected key load last is ++
      if (is.getLast?.map key).or last = some (key i) then [] else (load i).toList := by
  induction is generalizing last with
  | nil => simp only [List.nil_append, collected, List.append_nil]; rfl
  | cons j is ih =>
    rw [List.cons_append, collected, collected, ih, List.append_assoc, List.getLast?_cons]
    cases is.getLast? <;> rfl

variable {key load} {is : List ℕ} {i n : ℕ}

/-- A walk ends at its greatest place. -/
theorem getLast?_of_mem (hs : (is ++ [i]).Pairwise (· ≤ ·)) (hi : i ∈ is) :
    is.getLast? = some i := by
  obtain ⟨hsorted, -, hle⟩ := List.pairwise_append.mp hs
  rcases List.eq_nil_or_concat is with rfl | ⟨js, j, rfl⟩
  · cases hi
  · rw [List.concat_eq_append] at hsorted hi hle ⊢
    rw [List.getLast?_concat]
    have hji : j ≤ i := hle j (by simp) i (by simp)
    have hij : i ≤ j := by
      rcases List.mem_append.mp hi with hmem | hmem
      · exact (List.pairwise_append.mp hsorted).2.2 i hmem j (by simp)
      · exact (List.mem_singleton.mp hmem).le
    rw [le_antisymm hji hij]

omit [DecidableEq κ] in
/-- The place before a new one is the last. -/
theorem fresh_snoc_self (hs : (is ++ [i]).Pairwise (· ≤ ·)) (hi : i ∉ is) :
    Fresh key (is ++ [i]) i ↔ is.getLast?.map key ≠ some (key i) := by
  obtain ⟨hsorted, -, hle⟩ := List.pairwise_append.mp hs
  have hbelow : ∀ j ∈ is, j < i := fun j hj =>
    lt_of_le_of_ne (hle j hj i (by simp)) fun heq => hi (heq ▸ hj)
  rcases List.eq_nil_or_concat is with rfl | ⟨js, j, rfl⟩
  · simp [Fresh]
  · rw [List.concat_eq_append] at hsorted hbelow ⊢
    -- In a walk that never goes back, what stands last is what `i` is compared with.
    have hlast : ∀ m ∈ js, m ≤ j := fun m hm =>
      (List.pairwise_append.mp hsorted).2.2 m hm j (by simp)
    rw [List.getLast?_concat, Option.map_some, ne_eq, Option.some.injEq]
    constructor
    · intro hfresh
      refine hfresh.2 j (by simp) (hbelow j (by simp)) ?_
      intro m hm hjm hmi
      simp only [List.mem_append, List.mem_singleton] at hm
      rcases hm with (hm | rfl) | rfl
      · exact absurd hjm (not_lt.mpr (hlast m hm))
      · exact absurd hjm (lt_irrefl _)
      · exact absurd hmi (lt_irrefl _)
    · intro hkey
      refine ⟨by simp, ?_⟩
      intro m hm hmi hnone heq
      simp only [List.mem_append, List.mem_singleton] at hm
      rcases hm with (hm | rfl) | rfl
      · rcases (hlast m hm).lt_or_eq with hlt | rfl
        · exact hnone j (by simp) hlt (hbelow j (by simp))
        · exact hkey heq
      · exact hkey heq
      · exact absurd hmi (lt_irrefl _)

omit [DecidableEq κ] in
/-- One more visit changes nothing for the places before it. -/
theorem fresh_snoc_of_ne {m : ℕ} (hle : ∀ j ∈ is, j ≤ i) (hne : m ≠ i) :
    Fresh key (is ++ [i]) m ↔ Fresh key is m := by
  unfold Fresh
  simp only [List.mem_append, List.mem_singleton]
  constructor
  · rintro ⟨hm | rfl, hfresh⟩
    · refine ⟨hm, fun j hj hjm hnone => hfresh j (Or.inl hj) hjm ?_⟩
      rintro l (hl | rfl) hjl hlm
      · exact hnone l hl hjl hlm
      · exact absurd (hle m hm) (not_le.mpr hlm)
    · exact absurd rfl hne
  · rintro ⟨hm, hfresh⟩
    refine ⟨Or.inl hm, ?_⟩
    rintro j (hj | rfl) hjm hnone
    · exact hfresh j hj hjm fun l hl => hnone l (Or.inl hl)
    · exact absurd (hle m hm) (not_le.mpr hjm)

/-- A function that is `none` from `i` on. -/
theorem filterMap_range_of_none {F : ℕ → Option α} (hin : i ≤ n)
    (hnone : ∀ m, i ≤ m → F m = none) :
    (List.range n).filterMap F = (List.range i).filterMap F := by
  obtain ⟨k, rfl⟩ := Nat.le.dest hin
  rw [List.range_add, List.filterMap_append]
  have htail : ((List.range k).map (i + ·)).filterMap F = [] := by
    rw [List.filterMap_eq_nil_iff]
    intro m hm
    obtain ⟨l, -, rfl⟩ := List.mem_map.mp hm
    exact hnone _ (Nat.le_add_right i l)
  rw [htail, List.append_nil]

/-- **What a walk collects is the loads of its fresh places, in their order.** -/
theorem collected_eq_filterMap (hs : is.Pairwise (· ≤ ·)) (hn : ∀ i ∈ is, i < n) :
    collected key load none is =
      (List.range n).filterMap fun i => if Fresh key is i then load i else none := by
  induction is using List.reverseRecOn with
  | nil => simp [collected, Fresh]
  | append_singleton is i ih =>
    obtain ⟨hsorted, -, hbound⟩ := List.pairwise_append.mp hs
    have hle : ∀ j ∈ is, j ≤ i := fun j hj => hbound j hj i (by simp)
    rw [collected_snoc, ih hsorted fun j hj => hn j (by simp [hj]), Option.or_none]
    by_cases hi : i ∈ is
    · -- The walk stays where it is.
      rw [getLast?_of_mem hs hi, Option.map_some, if_pos rfl, List.append_nil]
      apply List.filterMap_congr
      intro m _
      have hsame : ∀ l, l ∈ is ++ [i] ↔ l ∈ is := by simp [hi]
      have hfresh : Fresh key (is ++ [i]) m ↔ Fresh key is m := by simp only [Fresh, hsame]
      simp only [hfresh]
    · have hin : i + 1 ≤ n := hn i (by simp)
      -- The walk moves on to `i`: nothing from `i` on was visited before.
      have hold : ∀ m, i ≤ m → (if Fresh key is m then load m else none) = none := by
        intro m him
        rw [if_neg]
        intro hfresh
        exact hi (le_antisymm (hle m hfresh.1) him ▸ hfresh.1)
      have hnew : ∀ m, i + 1 ≤ m → (if Fresh key (is ++ [i]) m then load m else none) = none := by
        intro m him
        simp only [fresh_snoc_of_ne hle (Nat.ne_of_gt him)]
        exact hold m (by omega)
      rw [filterMap_range_of_none (by omega) hold, filterMap_range_of_none hin hnew,
        List.range_succ, List.filterMap_append]
      congr 1
      · apply List.filterMap_congr
        intro m hm
        simp only [fresh_snoc_of_ne hle (List.mem_range.mp hm).ne]
      · by_cases hkey : is.getLast?.map key = some (key i)
        · simp [fresh_snoc_self hs hi, hkey]
        · cases hload : load i <;> simp [fresh_snoc_self hs hi, hkey, hload]

omit [DecidableEq κ] in
theorem filterMap_guarded_eq_iff {p : ℕ → Prop} [DecidablePred p] {xs : List ℕ} :
    xs.filterMap (fun i => if p i then load i else none) = xs.filterMap load ↔
      ∀ i ∈ xs, load i ≠ none → p i := by
  have hle : ∀ xs : List ℕ, (xs.filterMap fun i => if p i then load i else none).length ≤
      (xs.filterMap load).length := by
    intro xs
    induction xs with
    | nil => simp
    | cons i xs ih =>
      cases hload : load i <;> by_cases hp : p i <;> simp [hload, hp] <;> omega
  induction xs with
  | nil => simp
  | cons i xs ih =>
    cases hload : load i with
    | none => simpa [hload] using ih
    | some x =>
      by_cases hp : p i
      · simpa [hload, hp] using ih
      · have hshort : xs.filterMap (fun i => if p i then load i else none) ≠
            x :: xs.filterMap load := by
          intro heq
          have hlen := hle xs
          rw [heq, List.length_cons] at hlen
          omega
        simpa [hload, hp] using hshort

/-- **A walk collects every load exactly when every place with a load is fresh in it.** -/
theorem collected_eq_iff (hs : is.Pairwise (· ≤ ·)) (hn : ∀ i ∈ is, i < n) :
    collected key load none is = (List.range n).filterMap load ↔
      ∀ i < n, load i ≠ none → Fresh key is i := by
  rw [collected_eq_filterMap hs hn, filterMap_guarded_eq_iff]
  simp only [List.mem_range]

end Visits
end ObservabilityStack
