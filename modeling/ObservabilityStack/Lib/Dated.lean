import Mathlib.Algebra.BigOperators.Ring.Finset
import ObservabilityStack.Lib.Counter

/-!
# Counters that come into being

Events with dates are counted key by key. The counters of a key come into being with its first
event, all at once, and are looked at from time to time; what a look shows is what is dated up to
it. The increase over a window of looks is then a count of events again: those that are dated in the
window, but for the ones that came before the first look at their key (`increase_window`). The
counters of one key start together, so they lose the same events.

Compare `Counter`, which is about one counter and about the increments it misses. Here the events
come first and the counters are derived from them, so the result can be said in terms of events:
which of them a sum of increases has counted. `seen` is that set, and it depends on the dates and
the keys alone. It does not depend on the property `p` that is counted, and this is the point of
the module: two counters of one key, with different properties, have missed the same events, so a
quotient of their increases is the share of the one property among the events that were seen.

Dates are numbers of looks. An event that is dated `t` lies before look `t` and after the one
before it.
-/

set_option autoImplicit false

namespace ObservabilityStack
namespace Dated

open Counter (increase)

variable {ε κ : Type*} [DecidableEq κ] (events : List (ℕ × ε)) (key : ε → κ)

/-- The events of a key up to a date. -/
def upTo (k : κ) (t : ℕ) : List ε :=
  (events.filter fun e => e.1 ≤ t && key e.2 = k).map Prod.snd

def Present (k : κ) (t : ℕ) : Prop := ∃ e ∈ events, e.1 ≤ t ∧ key e.2 = k

instance (k : κ) (t : ℕ) : Decidable (Present events key k t) :=
  inferInstanceAs (Decidable (∃ _ ∈ _, _))

/-- What a look shows of the counter that counts `p`. -/
def sample (p : ε → Bool) (k : κ) (t : ℕ) : Option ℕ :=
  if Present events key k t then some ((upTo events key k t).countP p) else none

/-- The samples of the looks from `i` to `j`. -/
def window (f : ℕ → Option ℕ) (i j : ℕ) : List ℕ := (List.range' i (j + 1 - i)).filterMap f

/-- The event is dated after look `i`, up to look `j`, and its key was there at the look before. -/
def seen (i j : ℕ) (e : ℕ × ε) : Bool :=
  i < e.1 && e.1 ≤ j && decide (Present events key (key e.2) (e.1 - 1))

variable {events key} {k : κ}

omit [DecidableEq κ] in
theorem Present.mono {t t' : ℕ} (h : Present events key k t) (ht : t ≤ t') :
    Present events key k t' := by
  obtain ⟨e, he, hle, hkey⟩ := h
  exact ⟨e, he, hle.trans ht, hkey⟩

theorem upTo_ne_nil_iff {t : ℕ} : upTo events key k t ≠ [] ↔ Present events key k t := by
  unfold upTo Present
  rw [ne_eq, List.map_eq_nil_iff, List.filter_eq_nil_iff]
  simp only [Bool.and_eq_true, decide_eq_true_eq, not_forall, not_not, exists_prop]

theorem countP_upTo (p : ε → Bool) (k : κ) (t : ℕ) : (upTo events key k t).countP p =
    events.countP fun e => p e.2 && (e.1 ≤ t && key e.2 = k) := by
  unfold upTo
  rw [List.countP_map, List.countP_filter]
  rfl

/-- A window that holds the first look at a key starts with what that look shows. -/
theorem head?_window {f : ℕ → Option ℕ} {i j t x : ℕ} (hi : i ≤ t) (hj : t ≤ j)
    (hbefore : ∀ u, i ≤ u → u < t → f u = none) (ht : f t = some x) :
    (window f i j).head? = some x := by
  have hsplit : List.range' i (j + 1 - i) =
      List.range' i (t - i) ++ t :: List.range' (t + 1) (j - t) := by
    have happend := List.range'_append_1 (s := i) (m := t - i) (n := j - t + 1)
    rw [show i + (t - i) = t by omega, show t - i + (j - t + 1) = j + 1 - i by omega] at happend
    rw [← happend, List.range'_succ]
  have hnone : (List.range' i (t - i)).filterMap f = [] := by
    rw [List.filterMap_eq_nil_iff]
    intro u hu
    obtain ⟨hu₁, hu₂⟩ := List.mem_range'_1.mp hu
    exact hbefore u hu₁ (by omega)
  unfold window
  rw [hsplit, List.filterMap_append, hnone, List.nil_append, List.filterMap_cons, ht]
  rfl

theorem getLast?_window {f : ℕ → Option ℕ} {i j x : ℕ} (hij : i ≤ j) (hj : f j = some x) :
    (window f i j).getLast? = some x := by
  unfold window
  rw [show j + 1 - i = (j - i) + 1 by omega, List.range'_concat, List.filterMap_append,
    show i + 1 * (j - i) = j by omega]
  simp [hj]

/-- **The increase of a counter over a window counts the events that were seen.** -/
theorem increase_window (p : ε → Bool) (k : κ) {i j : ℕ} (hij : i ≤ j) :
    increase (window (sample events key p k) i j) =
      events.countP fun e => (seen events key i j e && p e.2) && key e.2 = k := by
  by_cases hlast : Present events key k j
  · -- The first look at the key, in the window.
    have hexists : ∃ t, i ≤ t ∧ Present events key k t := ⟨j, hij, hlast⟩
    obtain ⟨hi, hpresent⟩ := Nat.find_spec hexists
    have hle : Nat.find hexists ≤ j := Nat.find_min' hexists ⟨hij, hlast⟩
    have habsent : ∀ u, i ≤ u → u < Nat.find hexists → ¬ Present events key k u :=
      fun u hu hlt hpresent => Nat.find_min hexists hlt ⟨hu, hpresent⟩
    generalize Nat.find hexists = t at hi hpresent hle habsent
    have hfirst := head?_window (f := sample events key p k) hi hle
      (fun u hu hlt => if_neg (habsent u hu hlt)) (if_pos hpresent)
    have hend := getLast?_window (f := sample events key p k) hij (if_pos hlast)
    rw [Counter.increase_eq hfirst hend, countP_upTo, countP_upTo]
    -- An event counted at the end was counted at the first look, or was seen in the window after
    -- it.
    have hsplit : events.countP (fun e => p e.2 && (e.1 ≤ j && key e.2 = k)) =
        events.countP (fun e => p e.2 && (e.1 ≤ t && key e.2 = k)) +
          events.countP fun e => (seen events key i j e && p e.2) && key e.2 = k := by
      rw [List.countP_eq_countP_filter_add events _ fun e => decide (e.1 ≤ t), List.countP_filter,
        List.countP_filter]
      refine congrArg₂ (· + ·) (List.countP_congr fun e _ => ?_) (List.countP_congr fun e _ => ?_)
      · simp only [Bool.and_eq_true, decide_eq_true_eq]
        constructor
        · rintro ⟨⟨hp, -, hkey⟩, ht⟩
          exact ⟨hp, ht, hkey⟩
        · rintro ⟨hp, ht, hkey⟩
          exact ⟨⟨hp, ht.trans hle, hkey⟩, ht⟩
      · simp only [seen, Bool.and_eq_true, decide_eq_true_eq, Bool.not_eq_true',
          decide_eq_false_iff_not, not_le]
        constructor
        · rintro ⟨⟨hp, hej, rfl⟩, hte⟩
          exact ⟨⟨⟨⟨by omega, hej⟩, hpresent.mono (by omega)⟩, hp⟩, rfl⟩
        · rintro ⟨⟨⟨⟨hie, hej⟩, hprevious⟩, hp⟩, rfl⟩
          refine ⟨⟨hp, hej, rfl⟩, ?_⟩
          by_contra hte
          exact habsent (e.1 - 1) (by omega) (by omega) hprevious
    rw [hsplit]
    push_cast
    exact add_sub_cancel_left _ _
  -- A key that is never present has no sample, and no event of it was seen either.
  · have hnone : window (sample events key p k) i j = [] := by
      unfold window
      rw [List.filterMap_eq_nil_iff]
      intro t ht
      have htj := (List.mem_range'_1.mp ht).2
      exact if_neg fun hpresent => hlast (hpresent.mono (by omega))
    rw [hnone]
    refine (congrArg Nat.cast (List.countP_eq_zero.mpr ?_)).symm
    intro e _ h
    simp only [seen, Bool.and_eq_true, decide_eq_true_eq] at h
    obtain ⟨⟨⟨⟨-, hj⟩, hpresent⟩, -⟩, rfl⟩ := h
    exact hlast (hpresent.mono (by omega))

/-- Over all keys, the increases count the events that were seen. -/
theorem sum_increase_window (p : ε → Bool) {keys : Finset κ} {i j : ℕ} (hij : i ≤ j)
    (hkeys : ∀ e ∈ events, seen events key i j e → key e.2 ∈ keys) :
    ∑ k ∈ keys, increase (window (sample events key p k) i j) =
      events.countP fun e => seen events key i j e && p e.2 := by
  have hsum := Counter.sum_countP keys (fun e : ℕ × ε => seen events key i j e && p e.2)
    (fun e => key e.2) events
  calc ∑ k ∈ keys, increase (window (sample events key p k) i j)
      = ((∑ k ∈ keys, events.countP fun e =>
          (seen events key i j e && p e.2) && key e.2 = k : ℕ) : ℤ) := by
        rw [Nat.cast_sum]
        exact Finset.sum_congr rfl fun k _ => increase_window p k hij
    _ = (events.countP fun e =>
          (seen events key i j e && p e.2) && key e.2 ∈ keys : ℕ) := by
        rw [hsum]
    _ = (events.countP fun e => seen events key i j e && p e.2 : ℕ) := by
        refine congrArg Nat.cast (List.countP_congr fun e he => ?_)
        simp only [Bool.and_eq_true, decide_eq_true_eq]
        exact and_iff_left_of_imp fun h => hkeys e he h.1

/-- When every key of the window was there at its first look, nothing is lost. -/
theorem seen_of_present {i j : ℕ} {e : ℕ × ε} (hi : Present events key (key e.2) i)
    (hdate : i < e.1 ∧ e.1 ≤ j) : seen events key i j e = true := by
  have hprevious : Present events key (key e.2) (e.1 - 1) := hi.mono (by omega)
  simp [seen, hdate.1, hdate.2, hprevious]

end Dated
end ObservabilityStack
