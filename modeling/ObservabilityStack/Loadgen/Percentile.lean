import ObservabilityStack.Lib.Sorting
import ObservabilityStack.Loadgen.Stats
import Mathlib.Algebra.Order.Field.Rat
import Mathlib.Data.Rat.Floor
import Mathlib.Tactic.Linarith

/-!
# `Stats.percentile`

The method sorts the latencies it has and takes the element at the place
`max(1, ceil(quantile * n)) - 1`. What it is to return is said by `Sorting.HasRank`, which
counts and does not sort. That the value does not depend on the order of the recordings, grows
with the quantile, and is the minimum and the maximum at the two ends are facts about ranks.

A rank is a property of the value and not of a way to find it: so many of the latencies are at or
below it, and so many at or above. A list has exactly one value of each rank that it has an element
for, which is why the method computes *the* percentile. The quantile is any number in the unit
interval here, and the interpolating definitions of other tools are different ones.
-/

set_option autoImplicit false

namespace ObservabilityStack
namespace Loadgen
namespace Stats

open Sorting (sorted HasRank)

/-- `percentile`; the error is the text of the exception. -/
def percentile (s : Stats) (quantile : ℚ) : Except String ℚ :=
  if 0 ≤ quantile ∧ quantile ≤ 1 then
    if s.latencies = [] then .ok 0
    else
      let ordered := sorted s.latencies
      let rank := max 1 ⌈quantile * ordered.length⌉
      match ordered[(rank - 1).toNat]? with
      | some latency => .ok latency
      | none => .error "list index out of range"
  else .error "quantile must be within [0, 1]"

/-- The statistics after those calls of `record`. -/
def ofRecords (records : List (ℤ × ℚ)) : Stats :=
  records.foldl (fun s r => s.record r.1 r.2) init

theorem latencies_ofRecords (records : List (ℤ × ℚ)) :
    (ofRecords records).latencies = records.map Prod.snd := by
  induction records using List.reverseRecOn with
  | nil => rfl
  | append_singleton records r ih =>
    unfold ofRecords at ih ⊢
    rw [List.foldl_append, List.map_append, ← ih]
    rfl

/-- The rank of a quantile among `n` latencies. -/
def nearestRank (quantile : ℚ) (n : ℕ) : ℕ := max 1 ⌈quantile * n⌉₊

theorem nearestRank_pos (quantile : ℚ) (n : ℕ) : 1 ≤ nearestRank quantile n := le_max_left _ _

theorem nearestRank_le {quantile : ℚ} {n : ℕ} (hn : 1 ≤ n) (h1 : quantile ≤ 1) :
    nearestRank quantile n ≤ n := by
  apply max_le hn
  apply Nat.ceil_le.mpr
  exact mul_le_of_le_one_left (Nat.cast_nonneg n) h1

theorem nearestRank_mono {p q : ℚ} (hpq : p ≤ q) (n : ℕ) : nearestRank p n ≤ nearestRank q n :=
  max_le_max le_rfl (Nat.ceil_mono (mul_le_mul_of_nonneg_right hpq (Nat.cast_nonneg n)))

theorem nearestRank_zero (n : ℕ) : nearestRank 0 n = 1 := by
  simp [nearestRank]

theorem nearestRank_one {n : ℕ} (hn : 1 ≤ n) : nearestRank 1 n = n := by
  simp [nearestRank, hn]

/-- The place the code reads is the one of the rank. -/
theorem toNat_rank {quantile : ℚ} (h0 : 0 ≤ quantile) (n : ℕ) :
    (max 1 ⌈quantile * n⌉ - 1).toNat = nearestRank quantile n - 1 := by
  have hpos : 0 ≤ quantile * n := mul_nonneg h0 (Nat.cast_nonneg n)
  unfold nearestRank
  rw [← Int.natCast_ceil_eq_ceil hpos]
  omega

/-- The index is within bounds, and the element there has the nearest rank. -/
theorem percentile_hasRank {s : Stats} (hne : s.latencies ≠ []) {quantile : ℚ}
    (h0 : 0 ≤ quantile) (h1 : quantile ≤ 1) :
    ∃ v, s.percentile quantile = .ok v ∧
      HasRank (nearestRank quantile s.latencies.length) s.latencies v := by
  have hlength : (sorted s.latencies).length = s.latencies.length := Sorting.length_sortBy _ _
  have hn : 1 ≤ s.latencies.length := List.length_pos_iff.mpr hne
  have hrank := nearestRank_pos quantile s.latencies.length
  have hi : nearestRank quantile s.latencies.length - 1 < (sorted s.latencies).length := by
    have hle := nearestRank_le hn h1
    omega
  refine ⟨_, ?_, Nat.sub_add_cancel hrank ▸ Sorting.hasRank_sorted hi⟩
  unfold percentile
  rw [if_pos ⟨h0, h1⟩, if_neg hne]
  dsimp only
  rw [hlength, toNat_rank h0, List.getElem?_eq_getElem hi]

/-- The order in which latencies were recorded is not visible. -/
theorem percentile_congr {s s' : Stats} (h : s.latencies.Perm s'.latencies) (quantile : ℚ) :
    s.percentile quantile = s'.percentile quantile := by
  have hnil : s.latencies = [] ↔ s'.latencies = [] := by
    rw [← List.length_eq_zero_iff, ← List.length_eq_zero_iff, h.length_eq]
  unfold percentile
  rw [Sorting.sorted_eq_of_perm h]
  simp only [hnil]

/-- **`percentile` is the nearest-rank percentile.** -/
theorem percentile_nearest_rank {records : List (ℤ × ℚ)} (hne : records ≠ []) :
    (∀ q, 0 ≤ q → q ≤ 1 → ∃ v, (ofRecords records).percentile q = .ok v ∧
      HasRank (max 1 ⌈q * records.length⌉₊) (records.map Prod.snd) v) ∧
    (∀ records' : List (ℤ × ℚ), (records.map Prod.snd).Perm (records'.map Prod.snd) →
      ∀ q, (ofRecords records).percentile q = (ofRecords records').percentile q) ∧
    (∀ p q v w, 0 ≤ p → p ≤ q → q ≤ 1 → (ofRecords records).percentile p = .ok v →
      (ofRecords records).percentile q = .ok w → v ≤ w) ∧
    (∀ v, (ofRecords records).percentile 0 = .ok v → ∀ x ∈ records.map Prod.snd, v ≤ x) ∧
    (∀ v, (ofRecords records).percentile 1 = .ok v → ∀ x ∈ records.map Prod.snd, x ≤ v) := by
  have hlatencies := latencies_ofRecords records
  have hne' : (ofRecords records).latencies ≠ [] := by simpa [hlatencies] using hne
  have hlength : (ofRecords records).latencies.length = records.length := by simp [hlatencies]
  have hn : 1 ≤ records.length := List.length_pos_iff.mpr hne
  have hrank : ∀ q, 0 ≤ q → q ≤ 1 → ∃ v, (ofRecords records).percentile q = .ok v ∧
      HasRank (nearestRank q records.length) (records.map Prod.snd) v := by
    intro q h0 h1
    have hv := percentile_hasRank hne' h0 h1
    rwa [hlength, hlatencies] at hv
  -- A percentile that was returned is the one that has the rank.
  have hof : ∀ q v, 0 ≤ q → q ≤ 1 → (ofRecords records).percentile q = .ok v →
      HasRank (nearestRank q records.length) (records.map Prod.snd) v := by
    intro q v h0 h1 hv
    obtain ⟨v', hv', hr⟩ := hrank q h0 h1
    cases hv.symm.trans hv'
    exact hr
  refine ⟨hrank, ?_, ?_, ?_, ?_⟩
  · intro records' hperm q
    apply percentile_congr
    rwa [hlatencies, latencies_ofRecords]
  · intro p q v w h0 hpq h1 hv hw
    have hvr := hof p v h0 (hpq.trans h1) hv
    have hwr := hof q w (h0.trans hpq) h1 hw
    exact hvr.mono hwr (nearestRank_mono hpq _)
  · intro v hv
    have hvr := hof 0 v le_rfl zero_le_one hv
    rw [nearestRank_zero] at hvr
    exact hvr.first
  · intro v hv
    have hvr := hof 1 v zero_le_one le_rfl hv
    rw [nearestRank_one hn] at hvr
    apply HasRank.last
    rwa [List.length_map]

/-- Three recordings, two of them equal. -/
theorem percentile_nearest_rank_three :
    ∃ v, (ofRecords [(200, 3), (503, 1), (200, 3)]).percentile (1 / 3) = .ok v ∧
      HasRank (max 1 ⌈(1 / 3 : ℚ) * 3⌉₊) [3, 1, 3] v := by
  have hne : [((200 : ℤ), (3 : ℚ)), (503, 1), (200, 3)] ≠ [] := by simp
  exact (percentile_nearest_rank hne).1 (1 / 3) (by norm_num) (by norm_num)

end Stats
end Loadgen
end ObservabilityStack
