import ObservabilityStack.Python.Text
import Mathlib.Data.Int.Log
import Mathlib.Data.Rat.Floor
import Mathlib.Algebra.Order.Field.Power
import Mathlib.Tactic.Linarith
import Mathlib.Tactic.Positivity

/-!
# Floats, as rationals that are rounded

A float operation returns the exact result, rounded. So a program that computes with floats is a
program that computes with rationals and rounds after every operation, and what its proofs need
of the rounding is little: it keeps the order, and it leaves 0 alone. `Rounding` is a function
with these two properties. A theorem about every `Rounding` is then a theorem about the program
in exact arithmetic (`Rounding.exact`) and about the program in double precision
(`Rounding.binary64`) at once, and about no particular property of either.

`Rounding.binary64` rounds to the nearest multiple of the spacing of the doubles at that
magnitude, half to even, with 53 bits of precision and 2⁻¹⁰⁷⁴ as the finest spacing. Nothing is
assumed about it: that it keeps the order is proved (`nearest_mono`), and it evaluates. The
argument is that two numbers of one magnitude are rounded to one grid, and two of different
magnitudes are separated by a power of two, which is on the grids of both.

What is left out is the overflow: here no number is too large for the format. Neither are there
signed zeros or NaNs, which no operation below has as its result.
-/

set_option autoImplicit false

namespace ObservabilityStack
namespace Python

/-! ## Rounding to an integer

`round` of a float without a number of digits takes the even one of two neighbours that are equally
near. On one unit interval it is a step from the lower end to the upper one, so it keeps the order
whichever way the middle goes. -/

theorem roundHalfEven_cases (x : ℚ) :
    roundHalfEven x = ⌊x⌋ ∧ x - ⌊x⌋ ≤ 1 / 2 ∨ roundHalfEven x = ⌊x⌋ + 1 ∧ 1 / 2 ≤ x - ⌊x⌋ := by
  have hfloor : x.floor = ⌊x⌋ := rfl
  unfold roundHalfEven
  simp only [hfloor]
  split
  · exact Or.inl ⟨rfl, by linarith⟩
  · split
    · exact Or.inr ⟨rfl, by linarith⟩
    · split
      · exact Or.inl ⟨rfl, by linarith⟩
      · exact Or.inr ⟨rfl, by linarith⟩

theorem roundHalfEven_of_lt {x : ℚ} (h : 1 / 2 < x - ⌊x⌋) : roundHalfEven x = ⌊x⌋ + 1 := by
  rcases roundHalfEven_cases x with ⟨-, hle⟩ | ⟨heq, -⟩
  · linarith
  · exact heq

theorem roundHalfEven_intCast (n : ℤ) : roundHalfEven (n : ℚ) = n := by
  rcases roundHalfEven_cases (n : ℚ) with ⟨heq, -⟩ | ⟨-, hle⟩
  · rw [heq, Int.floor_intCast]
  · rw [Int.floor_intCast, sub_self] at hle
    norm_num at hle

theorem roundHalfEven_mono {x y : ℚ} (hxy : x ≤ y) : roundHalfEven x ≤ roundHalfEven y := by
  have hfloor : ⌊x⌋ ≤ ⌊y⌋ := Int.floor_le_floor hxy
  rcases roundHalfEven_cases x with ⟨hx, -⟩ | ⟨hx, hhalf⟩
  · rcases roundHalfEven_cases y with ⟨hy, -⟩ | ⟨hy, -⟩ <;> omega
  · rcases hfloor.lt_or_eq with hlt | heq
    · rcases roundHalfEven_cases y with ⟨hy, -⟩ | ⟨hy, -⟩ <;> omega
    · -- In one unit interval: either `y` is past the middle, or both are in it.
      have hcast : (⌊x⌋ : ℚ) = ⌊y⌋ := by rw [heq]
      rcases hxy.lt_or_eq with hlt | rfl
      · have hmore : 1 / 2 < y - ⌊y⌋ := by linarith
        rw [hx, roundHalfEven_of_lt hmore, heq]
      · exact le_rfl

/-! ## Rounding to a grid

A format without bounds on its exponent is a family of grids, one for each magnitude. This is one
of them, with the multiples of `2 ^ e` for its points. -/

/-- The nearest multiple of `2 ^ e`. -/
def toGrid (e : ℤ) (x : ℚ) : ℚ := roundHalfEven (x / 2 ^ e) * 2 ^ e

theorem toGrid_mono (e : ℤ) : Monotone (toGrid e) := by
  intro x y hxy
  have hgrid : (0 : ℚ) < 2 ^ e := by positivity
  have hround : roundHalfEven (x / 2 ^ e) ≤ roundHalfEven (y / 2 ^ e) :=
    roundHalfEven_mono ((div_le_div_iff_of_pos_right hgrid).mpr hxy)
  exact mul_le_mul_of_nonneg_right (Int.cast_le.mpr hround) hgrid.le

/-- A power of two is on every finer grid. -/
theorem toGrid_zpow {e k : ℤ} (h : e ≤ k) : toGrid e (2 ^ k) = 2 ^ k := by
  obtain ⟨n, rfl⟩ := Int.le.dest h
  have hgrid : (2 : ℚ) ^ e ≠ 0 := by positivity
  have hpow : (2 : ℚ) ^ (e + (n : ℤ)) = ((2 ^ n : ℤ) : ℚ) * 2 ^ e := by
    rw [zpow_add₀ two_ne_zero, zpow_natCast, mul_comm]
    push_cast
    rfl
  rw [toGrid, hpow, mul_div_cancel_right₀ _ hgrid, roundHalfEven_intCast]

@[simp] theorem toGrid_zero (e : ℤ) : toGrid e 0 = 0 := by
  rw [toGrid, zero_div, show (0 : ℚ) = ((0 : ℤ) : ℚ) from rfl, roundHalfEven_intCast]
  simp

/-! ## Rounding to a double

A number is rounded to the grid of its own magnitude. The order is the one point where the grids
have to fit together: the least number of a magnitude is a power of two, it is on the grid of that
magnitude and on every finer one, and so nothing below it is rounded past it. -/

/-- The doubles as large as `x` are the multiples of `2 ^ spacing x` there. -/
def spacing (x : ℚ) : ℤ := max (Int.log 2 x - 52) (-1074)

/-- The nearest double of a number that is not negative. -/
def nearestMagnitude (x : ℚ) : ℚ := toGrid (spacing x) x

theorem nearestMagnitude_mono {x y : ℚ} (hx : 0 ≤ x) (hxy : x ≤ y) :
    nearestMagnitude x ≤ nearestMagnitude y := by
  unfold nearestMagnitude
  rcases hx.eq_or_lt with rfl | hpos
  · rw [toGrid_zero, ← toGrid_zero (spacing y)]
    exact toGrid_mono _ hxy
  · have hlog : Int.log 2 x ≤ Int.log 2 y := Int.log_mono_right hpos hxy
    have hle : spacing x ≤ spacing y := max_le_max (by omega) le_rfl
    rcases hle.eq_or_lt with heq | hlt
    · rw [heq]
      exact toGrid_mono _ hxy
    · -- The power of two that `y` begins its magnitude with lies between the two.
      have hfine : spacing y ≤ Int.log 2 y := by
        unfold spacing at hlt ⊢
        omega
      have hless : Int.log 2 x + 1 ≤ Int.log 2 y := by
        unfold spacing at hlt
        omega
      have hbelow : x ≤ 2 ^ Int.log 2 y :=
        calc x ≤ 2 ^ (Int.log 2 x + 1) := (Int.lt_zpow_succ_log_self one_lt_two x).le
          _ ≤ 2 ^ Int.log 2 y := zpow_le_zpow_right₀ one_le_two hless
      have habove : (2 : ℚ) ^ Int.log 2 y ≤ y :=
        Int.zpow_log_le_self one_lt_two (hpos.trans_le hxy)
      calc toGrid (spacing x) x ≤ toGrid (spacing x) (2 ^ Int.log 2 y) := toGrid_mono _ hbelow
        _ = 2 ^ Int.log 2 y := toGrid_zpow (hle.trans hfine)
        _ = toGrid (spacing y) (2 ^ Int.log 2 y) := (toGrid_zpow hfine).symm
        _ ≤ toGrid (spacing y) y := toGrid_mono _ habove

theorem nearestMagnitude_zero : nearestMagnitude 0 = 0 := toGrid_zero _

theorem nearestMagnitude_nonneg {x : ℚ} (hx : 0 ≤ x) : 0 ≤ nearestMagnitude x := by
  rw [← nearestMagnitude_zero]
  exact nearestMagnitude_mono le_rfl hx

/-- The nearest double. -/
def nearest (x : ℚ) : ℚ := if x < 0 then -nearestMagnitude (-x) else nearestMagnitude x

theorem nearest_mono : Monotone nearest := by
  intro x y hxy
  unfold nearest
  split
  · rename_i hx
    have hxneg : 0 ≤ -x := by linarith
    split
    · rename_i hy
      have hyneg : 0 ≤ -y := by linarith
      exact neg_le_neg (nearestMagnitude_mono hyneg (neg_le_neg hxy))
    · rename_i hy
      exact (neg_nonpos.mpr (nearestMagnitude_nonneg hxneg)).trans
        (nearestMagnitude_nonneg (not_lt.mp hy))
  · rename_i hx
    have hy : ¬ y < 0 := fun hy => hx (hxy.trans_lt hy)
    rw [if_neg hy]
    exact nearestMagnitude_mono (not_lt.mp hx) hxy

/-! ## Roundings

What the programs are proved for. A model takes one of these as a parameter, and rounds wherever
the source has a float operation whose rounding may matter. -/

/-- How the results of an arithmetic are rounded. -/
structure Rounding where
  round : ℚ → ℚ
  mono : Monotone round
  zero : round 0 = 0

namespace Rounding

/-- Rational arithmetic. -/
def exact : Rounding where
  round := id
  mono := monotone_id
  zero := rfl

/-- Double precision. -/
def binary64 : Rounding where
  round := nearest
  mono := nearest_mono
  zero := nearestMagnitude_zero

@[simp] theorem exact_round (x : ℚ) : exact.round x = x := rfl

theorem nonneg (r : Rounding) {x : ℚ} (h : 0 ≤ x) : 0 ≤ r.round x := by
  rw [← r.zero]
  exact r.mono h

-- `0.1 + 0.2` and `0.3`, of which the first is `0.30000000000000004`.
example : let r := binary64.round
    r (r (1 / 10) + r (2 / 10)) = r (3 / 10) + 2 ^ (-54 : ℤ) := by decide +kernel

end Rounding

end Python
end ObservabilityStack
