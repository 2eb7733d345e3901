import ObservabilityStack.Prometheus.ErrorBudget

/-!
# Detection, whatever the traffic looks like

`slo/README.md` gives the detection time of an incident in steady traffic with a steady share of
errors. `Attack` asks for bounds instead: traffic never denser than `traffic`, and in an interval of
length `D` at least the share `r` of that traffic is bad. What is counted in a window then weighs at
least as much as in the steady incident, so an alert fires at every moment at which it would there.

The comparison is of growths: what a window has counted here, and what it would have counted there.
It only uses that a window of the attack contains at least the share `r` of the densest traffic for
as long as the overlap says, and that a total cannot be more than the densest traffic. So nothing
is asked about when the errors come within the interval beyond the lower bound, nor about the
traffic before it.

Only one direction is left. An alert may fire on an attack when it would not on the steady
incident, earlier or for longer, and nothing can be said about that.
-/

set_option autoImplicit false

namespace ObservabilityStack
namespace Prometheus

open Overlap (elapsed overlap)

variable {K : Type*} [Field K] [LinearOrder K]

/-- From `start` on, for `D`, at least the share `r` of the densest traffic is bad. -/
structure Attack (c : Counters K) (traffic r start D : K) : Prop where
  growing : c.Growing
  traffic_pos : 0 < traffic
  r_pos : 0 < r
  r_le : r ≤ 1
  /-- Traffic is never denser than `traffic`… -/
  most : ∀ t u, t ≤ u → c.total u - c.total t ≤ traffic * (u - t)
  /-- …and during the attack at least the share `r` of that is bad. -/
  least : ∀ t u, start ≤ t → t ≤ u → u ≤ start + D → traffic * r * (u - t) ≤ c.bad u - c.bad t

namespace Attack

variable {c : Counters K} {traffic r start D : K} (h : Attack c traffic r start D)

/-- The steady incident it is compared with. -/
def steady (since : K) : Incident K := ⟨traffic, since, r, D, h.traffic_pos, h.r_pos, h.r_le⟩

variable [IsStrictOrderedRing K]

include h

/-- A window counts at least what it would of the steady incident. -/
theorem overlap_le_growth {w : K} (hw : 0 ≤ w) (t : K) :
    traffic * r * overlap D w (t - start) ≤ growth c.bad w t := by
  have hback : t - w ≤ t := sub_le_self t hw
  have helapsed : elapsed D (t - start - w) ≤ elapsed D (t - start) :=
    max_le_max le_rfl (min_le_min_right D (by linarith))
  rcases helapsed.eq_or_lt with heq | hlt
  · -- The window sees nothing of the attack.
    unfold overlap
    rw [heq, sub_self, mul_zero]
    exact sub_nonneg.mpr (h.growing.bad hback)
  -- What the window sees of the attack is an interval with its ends in the window and in the
  -- attack. The lower bound is applied to that interval, and the rest of the window cannot take
  -- anything off.
  · have hend : start + elapsed D (t - start) ≤ t := by
      have hpos : 0 < elapsed D (t - start) := (le_max_left _ _).trans_lt hlt
      have : elapsed D (t - start) ≤ t - start := by
        unfold elapsed at hpos ⊢
        grind
      linarith
    have hbegin : t - w ≤ start + elapsed D (t - start - w) := by
      have : t - start - w ≤ elapsed D (t - start - w) := by
        unfold elapsed at hlt ⊢
        grind
      linarith
    have hwithin : start + elapsed D (t - start) ≤ start + D := by
      have : elapsed D (t - start) ≤ D := by
        unfold elapsed at hlt ⊢
        grind
      linarith
    have hfirst : start ≤ start + elapsed D (t - start - w) :=
      le_add_of_nonneg_right (le_max_left _ _)
    have hleast := h.least _ _ hfirst (by linarith) hwithin
    have hgrowth := sub_le_sub (h.growing.bad hend) (h.growing.bad hbegin)
    calc traffic * r * overlap D w (t - start)
        = traffic * r * (start + elapsed D (t - start) - (start + elapsed D (t - start - w))) := by
          unfold overlap
          ring
      _ ≤ c.bad (start + elapsed D (t - start)) - c.bad (start + elapsed D (t - start - w)) :=
          hleast
      _ ≤ growth c.bad w t := hgrowth

/-- A window that exceeds a threshold in the steady incident does so here. -/
theorem exceeds {w θ : K} (hw : 0 < w) (hθ : 0 ≤ θ) (sli : Sli) {t : K}
    (hlevel : w * θ / r < overlap D w (t - start)) :
    ∃ x, ratioRate c w t sli = some x ∧ θ < x := by
  have hT := h.traffic_pos
  have hr := h.r_pos
  rw [h.growing.exceeds_iff sli θ hw]
  calc θ * growth c.total w t
      ≤ θ * (traffic * w) := by
        have hmost := h.most (t - w) t (sub_le_self t hw.le)
        rw [sub_sub_cancel] at hmost
        exact mul_le_mul_of_nonneg_left hmost hθ
    _ = traffic * r * (w * θ / r) := by field_simp
    _ < traffic * r * overlap D w (t - start) := by gcongr
    _ ≤ growth c.bad w t := h.overlap_le_growth hw.le t

end Attack

variable [IsStrictOrderedRing K]

/-- **Detection is never late.** An alert fires on an attack wherever it would on the steady
    incident: from the documented detection time on, to the documented reset. -/
theorem attack_is_detected (a : SloAlert K) (ha : a ∈ sloAlerts K) (c : Counters K)
    (traffic r start D : K) (h : Attack c traffic r start D) (hθ : a.threshold < r)
    (hD : a.long * a.threshold / r < D) (t : K)
    (hdetected : start + a.long * a.threshold / r + a.rule.forSeconds ≤ t)
    (hreset : t < start + D + a.short * (1 - a.threshold / r)) : a.fires c t := by
  have hwf := sloAlerts_wellFormed a ha
  have hshort := hwf.short_pos
  have hlong : 0 < a.long := by linarith [hwf.long_eq]
  intro u hu hut
  -- The steady incident has traffic since a long window before it.
  have hexpr : a.expr (h.steady (-a.long)).counters (u - start) := by
    refine (expr_interval hwf (h.steady (-a.long)) le_rfl hθ hD (u - start)).mpr ⟨?_, ?_⟩
    · show a.long * a.threshold / r < u - start
      linarith
    · show u - start < D + a.short * (1 - a.threshold / r)
      linarith
  obtain ⟨hover, hunder⟩ := (expr_iff hwf (h.steady (-a.long)) le_rfl (u - start)).mp hexpr
  exact ⟨h.exceeds hlong hwf.threshold_pos.le a.sli hover,
    h.exceeds hshort hwf.threshold_pos.le a.sli hunder⟩

/-- An incident is an attack, however young the service is. -/
theorem Incident.attack (i : Incident K) (hsince : i.since ≤ 0) :
    Attack i.counters i.traffic i.r 0 i.D where
  growing := i.growing hsince
  traffic_pos := i.traffic_pos
  r_pos := i.r_pos
  r_le := i.r_le
  most t u htu := by
    have hless : max 0 (u - i.since) - max 0 (t - i.since) ≤ u - t := by grind
    have := mul_le_mul_of_nonneg_left hless i.traffic_pos.le
    show i.traffic * max 0 (u - i.since) - i.traffic * max 0 (t - i.since) ≤ _
    linarith
  least t u ht htu hu := by
    rw [zero_add] at hu
    rw [i.bad_of_le (ht.trans htu) hu, i.bad_of_le ht (htu.trans hu), mul_sub]

/-- Ten minutes of outage, of a service that was started when it began. -/
def youngOutage : Incident ℚ := { outageOfTenMinutes with since := 0 }

theorem attack_is_detected_outage :
    (⟨errorBudgetBurnFast, .availability, 3600, 300, 144 / 10, 1 / 1000⟩ : SloAlert ℚ).fires
      youngOutage.counters 180 :=
  attack_is_detected _ List.mem_cons_self _ _ _ _ _ (youngOutage.attack le_rfl)
    (by norm_num [SloAlert.threshold, youngOutage, outageOfTenMinutes])
    (by norm_num [SloAlert.threshold, youngOutage, outageOfTenMinutes]) 180
    (by norm_num [SloAlert.threshold, youngOutage, outageOfTenMinutes, errorBudgetBurnFast])
    (by norm_num [SloAlert.threshold, youngOutage, outageOfTenMinutes])

end Prometheus
end ObservabilityStack
