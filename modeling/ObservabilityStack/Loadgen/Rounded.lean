import ObservabilityStack.Loadgen.Timed
import ObservabilityStack.Python.Float

/-!
# The driver in float arithmetic

`Driver` and `Timed` compute with exact rationals. The code computes with floats: it adds
`1.0 / phase.rps` to `next_slot`, asks `phase_at` about `now - started` and sleeps for
`next_slot - self._clock()`, and each of these results is rounded. For most of what the driver
promises that makes no difference worth modelling. For one thing it decides: the loop learns of
a phase only when it wakes up inside it, so a slot that is due at a boundary of the timeline, or
that comes an instant before it, settles which phases are entered at all.

`roundedStep` is the driver with these results rounded, and `next` everywhere else: in the queue,
the workers and the armings there is nothing to round. (A worker's latency is a float too. It is
recorded, and nothing here reads it, so it is left exact.) `roundedNext` is the same on a clock
on which a sleep of `d` seconds is due at the rounded sum of `d` and the time it began. If that
sum is a float, it is exactly `d` later; if it is not, no clock can show it.

With `Rounding.exact` these are `next` and `timedNext` again (`roundedStep_exact`,
`roundedNext_exact`), so this is not a second driver but the same one, with a parameter.

What is left out: the running boundary of `phase_at`, a sum of integers, is exact (as a float it
is so up to 2⁵³ seconds), and no result overflows.
-/

set_option autoImplicit false

namespace ObservabilityStack
namespace Loadgen

open Python (Rounding)

def roundedStep (r : Rounding) (g : LoadGenerator) (s : State) : Action → Option State
  | .dispatcher (.readNow now) =>
      match s.pc with
      | .selecting => some (enterPhase g s now (g.scenario.phaseAt (r.round (now - s.started))))
      | _ => none
  | .dispatcher (.pace clock) =>
      match s.pc with
      | .pacing phase now =>
          let nextSlot := max (r.round (s.nextSlot + r.round (1 / phase.rps))) now
          let remaining := r.round (nextSlot - clock)
          some { s with
            nextSlot := nextSlot
            pc := if remaining > 0 then .sleeping remaining else .looping }
      | _ => none
  | a => next g s a

/-- `Timed.after`, with the end of a sleep rounded. -/
def Timed.roundedAfter (r : Rounding) (c : Timed) (s : State) : Action → Timed
  | .dispatcher (.pace now) =>
      { c with
        state := s
        due := match s.pc with
          | .sleeping seconds => r.round (now + seconds)
          | _ => c.due }
  | a => c.after s a

def roundedNext (r : Rounding) (g : LoadGenerator) (c : Timed) : TimedAction → Option Timed
  | .elapse seconds => if 0 < seconds then some { c with time := c.time + seconds } else none
  | .act a =>
      if c.Allows a then (roundedStep r g c.state a).map fun s => c.roundedAfter r s a else none

/-! ## In exact arithmetic it is the driver

Term by term: a rounding that does nothing is the identity. -/

theorem roundedStep_exact (g : LoadGenerator) : roundedStep .exact g = next g := by
  funext s a
  cases a with
  | dispatcher a => cases a <;> rfl
  | stop => rfl
  | worker w a => rfl

theorem roundedNext_exact (g : LoadGenerator) : roundedNext .exact g = timedNext g := by
  funext c a
  cases a with
  | elapse seconds => rfl
  | act a =>
    have hafter : ∀ s, c.roundedAfter .exact s a = c.after s a := by
      intro s
      cases a with
      | dispatcher a => cases a <;> rfl
      | stop => rfl
      | worker w a => rfl
    simp only [roundedNext, timedNext, roundedStep_exact, hafter]

/-! ## What a rounded step can do

The steps of the driver again, with the three that round in their rounded form. -/

/-- The two actions whose results are rounded. -/
def Action.isRounded : Action → Bool
  | .dispatcher (.readNow _) | .dispatcher (.pace _) => true
  | _ => false

inductive RoundedStep (r : Rounding) (g : LoadGenerator) (s : State) : Action → State → Prop
  | readNow (now : ℚ) (hpc : s.pc = .selecting) :
      RoundedStep r g s (.dispatcher (.readNow now))
        (enterPhase g s now (g.scenario.phaseAt (r.round (now - s.started))))
  | pace (phase : Phase) (now clock nextSlot remaining : ℚ) (hpc : s.pc = .pacing phase now)
      (hnext : nextSlot = max (r.round (s.nextSlot + r.round (1 / phase.rps))) now)
      (hleft : remaining = r.round (nextSlot - clock)) :
      RoundedStep r g s (.dispatcher (.pace clock))
        { s with
          nextSlot := nextSlot
          pc := if remaining > 0 then .sleeping remaining else .looping }
  | other (a : Action) (s' : State) (hother : a.isRounded = false) (hnext : next g s a = some s') :
      RoundedStep r g s a s'

theorem roundedStep_cases {r : Rounding} {g : LoadGenerator} {s s' : State} {a : Action}
    (h : roundedStep r g s a = some s') : RoundedStep r g s a s' := by
  unfold roundedStep at h
  split at h
  · split at h
    · cases h
      exact .readNow _ ‹_›
    · cases h
  · split at h
    · cases h
      exact .pace _ _ _ _ _ ‹_› rfl rfl
    · cases h
  · rename_i hread hpace
    refine .other a s' ?_ h
    unfold Action.isRounded
    split
    · exact absurd rfl (hread _)
    · exact absurd rfl (hpace _)
    · rfl

theorem Timed.roundedAfter_of_other {r : Rounding} {a : Action} (h : a.isRounded = false)
    (c : Timed) (s : State) : c.roundedAfter r s a = c.after s a := by
  unfold roundedAfter
  split
  · cases h
  · rfl

end Loadgen
end ObservabilityStack
