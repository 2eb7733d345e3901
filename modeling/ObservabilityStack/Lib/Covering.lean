import Mathlib.Algebra.Order.Archimedean.Basic
import Mathlib.Tactic.Linarith
import Mathlib.Tactic.Ring

/-!
# Light windows that cover a stretch of time

`part` and `whole` grow with time. A moment is *light* when `part` has grown by no more than the
share `θ` of what `whole` has grown by, in some window that ends there and is neither too short nor
too long. `growth_le` and `growth_le_of_often` go back through a stretch of time from window to
window: where every moment is light the windows can be laid end to end, and where there is a light
moment in every stretch of length `F` they overlap, but no three of them do.

The setting is a monitor that looks at windows and a quantity that is to be bounded over a stretch
of time. That a window is light is all that is known of a moment, and the windows of neighbouring
moments have nothing to do with each other: their lengths differ and they overlap at will. What
makes the sum come out is that `whole` is counted again at most as often as windows overlap. Laid
end to end they do not, and the share stays `θ`. Where light moments are only frequent they cannot
be laid end to end, and the share doubles.

`whole` is counted from `longest` before the stretch, because the first window may reach back so
far. The field is Archimedean so that finitely many windows cover the stretch.
-/

set_option autoImplicit false

namespace ObservabilityStack
namespace Covering

variable {K : Type*} [Field K] [LinearOrder K]

/-- In a window that ends at `u`, no shorter than `shortest` and no longer than `longest`, `part`
    has grown by at most the share `θ` of what `whole` has. -/
def Light (part whole : K → K) (θ shortest longest u : K) : Prop :=
  ∃ w, shortest ≤ w ∧ w ≤ longest ∧ part u - part (u - w) ≤ θ * (whole u - whole (u - w))

variable [IsStrictOrderedRing K] {part whole : K → K} {θ shortest longest : K}

section Step

variable (hpart : Monotone part) (hwhole : Monotone whole) (hθ : 0 ≤ θ) {s w u : K}

include hpart hwhole hθ

/-- A window that reaches back to `s` is enough. -/
theorem growth_le_of_reaching (hlongest : w ≤ longest) (hsu : s ≤ u) (hreach : u - w ≤ s)
    (hlight : part u - part (u - w) ≤ θ * (whole u - whole (u - w))) :
    part u - part s ≤ θ * (whole u - whole (s - longest)) := by
  have hback : whole (s - longest) ≤ whole (u - w) := hwhole (by linarith)
  calc part u - part s
      ≤ part u - part (u - w) := sub_le_sub_left (hpart hreach) _
    _ ≤ θ * (whole u - whole (u - w)) := hlight
    _ ≤ θ * (whole u - whole (s - longest)) :=
        mul_le_mul_of_nonneg_left (sub_le_sub_left hback _) hθ

variable [Archimedean K]

/-- **Where every moment is light**, windows laid end to end cover the stretch. -/
theorem growth_le (hshortest : 0 < shortest) {e : K} (hse : s ≤ e)
    (h : ∀ u, s ≤ u → u ≤ e → Light part whole θ shortest longest u) :
    part e - part s ≤ θ * (whole e - whole (s - longest)) := by
  obtain ⟨n, hn⟩ := Archimedean.arch (e - s) hshortest
  rw [nsmul_eq_mul] at hn
  -- The induction is on a bound for the number of windows.
  induction n generalizing e with
  | zero =>
    obtain rfl : s = e := le_antisymm hse (by simpa using hn)
    obtain ⟨w, hshort, hlong, hlight⟩ := h s le_rfl le_rfl
    exact growth_le_of_reaching hpart hwhole hθ hlong le_rfl (by linarith) hlight
  | succ n ih =>
    obtain ⟨w, hshort, hlong, hlight⟩ := h e hse le_rfl
    rcases le_total (e - w) s with hreach | hreach
    · exact growth_le_of_reaching hpart hwhole hθ hlong hse hreach hlight
    · have hrest := ih hreach (fun u hsu hue => h u hsu (by linarith))
        (by push_cast at hn; linarith)
      linarith

/-- The windows that end at `u` and before it, when there is a light moment in every stretch of
    length `F`: those of every second window are disjoint, so `whole` is counted at most twice. -/
theorem growth_le_from_light {F e : K} (hF : 0 < F) (hshortest : 2 * F ≤ shortest)
    (h : ∀ t, s ≤ t → t ≤ e → ∃ u, t - F < u ∧ u ≤ t ∧ Light part whole θ shortest longest u)
    (hsu : s ≤ u) (hue : u ≤ e) (hu : Light part whole θ shortest longest u) :
    ∃ m, m ≤ u - F ∧ part u - part s ≤
      θ * (whole u - whole (s - longest)) + θ * (whole m - whole (s - longest)) := by
  obtain ⟨n, hn⟩ := Archimedean.arch (u - s) hF
  rw [nsmul_eq_mul] at hn
  induction n generalizing u with
  | zero =>
    obtain ⟨w, hshort, hlong, hlight⟩ := hu
    have hus : u ≤ s := by simpa using hn
    refine ⟨u - w, by linarith, ?_⟩
    have hfirst :=
      growth_le_of_reaching hpart hwhole hθ hlong hsu (by linarith : u - w ≤ s) hlight
    have hback : whole (s - longest) ≤ whole (u - w) := hwhole (by linarith)
    linarith [mul_nonneg hθ (sub_nonneg.mpr hback)]
  | succ n ih =>
    obtain ⟨w, hshort, hlong, hlight⟩ := hu
    rcases le_or_gt (u - w) s with hreach | hreach
    · refine ⟨u - w, by linarith, ?_⟩
      have hfirst := growth_le_of_reaching hpart hwhole hθ hlong hsu hreach hlight
      have hback : whole (s - longest) ≤ whole (u - w) := hwhole (by linarith)
      linarith [mul_nonneg hθ (sub_nonneg.mpr hback)]
    · -- A light moment no later than `F` after the start of this window, and the window there.
      obtain ⟨v, hwv, hvw, hv⟩ := h (u - w + F) (by linarith) (by linarith)
      have hvu : v ≤ u - F := by linarith
      obtain ⟨m, hm, hrest⟩ :=
        ih (by linarith) (by linarith) hv (by push_cast at hn; linarith)
      refine ⟨v, hvu, ?_⟩
      -- Windows that overlap count a stretch twice on the left, which only makes the sum larger.
      have hoverlap : part (u - w) ≤ part v := hpart (by linarith)
      have hapart : θ * whole m ≤ θ * whole (u - w) :=
        mul_le_mul_of_nonneg_left (hwhole (by linarith)) hθ
      linarith

/-- **Where there is a light moment in every stretch of length `F`**, `part` grows by at most twice
    the share. -/
theorem growth_le_of_often {F e : K} (hF : 0 < F) (hshortest : 2 * F ≤ shortest) (hse : s ≤ e)
    (h : ∀ t, s ≤ t → t ≤ e + F →
      ∃ u, t - F < u ∧ u ≤ t ∧ Light part whole θ shortest longest u) :
    part e - part s ≤ 2 * θ * (whole (e + F) - whole (s - longest)) := by
  obtain ⟨u, heu, hue, hu⟩ := h (e + F) (by linarith) le_rfl
  obtain ⟨m, hm, hgrowth⟩ :=
    growth_le_from_light hpart hwhole hθ hF hshortest h (by linarith) hue hu
  have hpe : part e ≤ part u := hpart (by linarith)
  have hu' : θ * whole u ≤ θ * whole (e + F) := mul_le_mul_of_nonneg_left (hwhole hue) hθ
  have hm' : θ * whole m ≤ θ * whole (e + F) :=
    mul_le_mul_of_nonneg_left (hwhole (by linarith)) hθ
  linarith

end Step

end Covering
end ObservabilityStack
