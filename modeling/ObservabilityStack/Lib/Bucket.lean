import Mathlib.Algebra.Order.Field.Basic
import Mathlib.Algebra.Order.BigOperators.Group.Finset
import Mathlib.Tactic.Linarith
import Mathlib.Tactic.Ring

/-!
# Paced arrivals at a pool of servers

A pacer keeps a deadline: an arrival at time `t` moves it from `n` to `max (n + 1 / r) t`, and
the next arrival waits for it. Seen from outside this is a token bucket of depth 2. `level` is
what is in the bucket: it fills at `rate`, the highest of the rates `r`, and `level_spend` says
that an arrival is paid for. The second token is the arrival a stalled pacer makes up for.

The servers keep a sum (`total`), what they still have to do. A step of one server changes its
own term, and while time passes every busy server works off as much.

The two halves are used together in an argument about room. Work arrives only as the bucket pays
for it, and is done only as the servers do it; when a unit of work fits into what the pool does
between two tokens, the sum of what is in the bucket and what is owed by the servers cannot grow
past the size of the pool. Neither half says anything about that bound. They give the inequalities
for one step each, and a system that has both adds them up.

Everything is stated over an ordered field, with times and amounts of work measured alike: a server
works off one unit of time in one unit of time.
-/

set_option autoImplicit false

namespace ObservabilityStack
namespace Bucket

section level

variable {K : Type*} [Field K] [LinearOrder K]

/-- The tokens at time `t` when the deadline is `n`. -/
def level (rate t n : K) : K := max 0 (min 2 (1 + rate * (t - n)))

variable {rate r t n dt : K}

theorem level_nonneg : 0 ≤ level rate t n := le_max_left 0 _

variable [IsStrictOrderedRing K]

theorem level_le_two : level rate t n ≤ 2 :=
  max_le (by norm_num) (min_le_left 2 _)

/-- The bucket fills no faster than its rate. -/
theorem level_elapse (hrate : 0 ≤ rate) (hdt : 0 ≤ dt) :
    level rate (t + dt) n ≤ level rate t n + rate * dt := by
  have hfill : 0 ≤ rate * dt := mul_nonneg hrate hdt
  have hsplit : rate * (t + dt - n) = rate * (t - n) + rate * dt := by ring
  unfold level
  rw [hsplit]
  apply max_le
  · exact add_nonneg (le_max_left 0 _) hfill
  · calc min 2 (1 + (rate * (t - n) + rate * dt))
        ≤ min 2 (1 + rate * (t - n)) + rate * dt := by
          rw [min_add_add_right 2 (1 + rate * (t - n)) (rate * dt) |>.symm]
          exact min_le_min (by linarith) (by linarith)
      _ ≤ max 0 (min 2 (1 + rate * (t - n))) + rate * dt := by
          linarith [le_max_right 0 (min 2 (1 + rate * (t - n)))]

/-- An arrival that is due takes one token. -/
theorem level_spend (hr : 0 < r) (hle : r ≤ rate) (hdue : n ≤ t) :
    1 + level rate t (max (n + 1 / r) t) ≤ level rate t n := by
  have hgap : 1 ≤ rate * (1 / r) := by
    rw [mul_one_div, le_div_iff₀ hr]
    linarith
  have hlate : 0 ≤ rate * (t - n) := mul_nonneg (hr.le.trans hle) (sub_nonneg.mpr hdue)
  unfold level
  rcases le_total (n + 1 / r) t with hstall | hpaced
  · -- The pacer is a whole slot late: the bucket was full and keeps one token.
    have hfull : 1 ≤ rate * (t - n) :=
      hgap.trans (mul_le_mul_of_nonneg_left (by linarith) (hr.le.trans hle))
    rw [max_eq_right hstall, sub_self, mul_zero]
    grind
  · have hsplit : rate * (t - (n + 1 / r)) = rate * (t - n) - rate * (1 / r) := by ring
    have hnext : rate * (t - (n + 1 / r)) ≤ 0 :=
      mul_nonpos_of_nonneg_of_nonpos (hr.le.trans hle) (sub_nonpos.mpr hpaced)
    rw [max_eq_left hpaced]
    grind

end level

/-! ## The servers

A pool is a function from the numbers of its servers to what each has left to do. That it is a
function, and not a list, keeps the number of servers apart from what they do: a step says what it
does to one of them and that it leaves the others alone. -/

section total

variable {K : Type*} [Field K] {f f' : ℕ → K} {n i : ℕ}

/-- What `n` servers have left to do. -/
def total (n : ℕ) (f : ℕ → K) : K := ∑ i ∈ Finset.range n, f i

/-- One server changed. -/
theorem total_replace (hi : i < n) (h : ∀ j ≠ i, f' j = f j) :
    total n f' + f i = total n f + f' i := by
  unfold total
  rw [← Finset.add_sum_erase _ f (Finset.mem_range.mpr hi),
    ← Finset.add_sum_erase _ f' (Finset.mem_range.mpr hi),
    Finset.sum_congr rfl fun j hj => h j (Finset.ne_of_mem_erase hj)]
  ring

/-- All servers worked for a time `d`. -/
theorem total_worked {d : K} (h : ∀ i < n, f' i + d = f i) : total n f' + n * d = total n f := by
  unfold total
  rw [← Finset.sum_congr rfl fun i hi => h i (Finset.mem_range.mp hi), Finset.sum_add_distrib]
  simp

variable [LinearOrder K] [IsStrictOrderedRing K]

theorem total_mono (h : ∀ i < n, f' i ≤ f i) : total n f' ≤ total n f :=
  Finset.sum_le_sum fun i hi => h i (Finset.mem_range.mp hi)

theorem total_nonneg (h : ∀ i < n, 0 ≤ f i) : 0 ≤ total n f :=
  Finset.sum_nonneg fun i hi => h i (Finset.mem_range.mp hi)

theorem total_le (h : ∀ i < n, f i ≤ 1) : total n f ≤ n := by
  have hsum := Finset.sum_le_card_nsmul (Finset.range n) f 1
    fun i hi => h i (Finset.mem_range.mp hi)
  simpa [total] using hsum

end total

end Bucket
end ObservabilityStack
