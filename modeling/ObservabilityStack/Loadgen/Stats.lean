import ObservabilityStack.Lib.Dict
import Mathlib.Data.Rat.Defs
import Mathlib.Algebra.BigOperators.Group.List.Basic
import Mathlib.Algebra.GroupWithZero.Nat

/-!
# `loadgen/stats.py`: the client-side counters of a run

`record` and `record_dropped` each run under the object's lock, so they are single updates of
the record. The three ways the class counts a request (`sent`, the per-class counts, the list
of latencies) agree in every state those updates can reach; `Stats.Consistent` says so and
`consistent_record`, `consistent_recordDropped` keep it.

`Consistent` is a predicate and not a part of the type, since the source has three attributes that
any caller could change; that none does is the result. A request that raised is in none of the
counts. What that means for the summary is a question about `_send_one` and not about this object.
-/

set_option autoImplicit false

namespace ObservabilityStack
namespace Loadgen

/-- `Stats`, without the lock: every method that changes it holds the lock throughout, so a call
    is one step. A class that was never counted is not in the dictionary. -/
structure Stats where
  sent : ℕ
  dropped : ℕ
  byClass : Dict String ℕ
  latencies : List ℚ
  deriving DecidableEq

namespace Stats

def init : Stats := ⟨0, 0, .empty, []⟩

/-- The class a status is counted under: `f"{status // 100}xx"`. -/
def bucket (status : ℤ) : String := s!"{status / 100}xx"

/-- `record`: one more request of its class, with its latency. -/
def record (s : Stats) (status : ℤ) (latencySeconds : ℚ) : Stats :=
  { s with
    sent := s.sent + 1
    byClass := s.byClass.set (bucket status) (s.byClass.getD (bucket status) 0 + 1)
    latencies := s.latencies ++ [latencySeconds] }

/-- `record_dropped`: the slot found the queue full and was never sent. -/
def recordDropped (s : Stats) : Stats := { s with dropped := s.dropped + 1 }

/-- `errors`: what was counted under `5xx`, answered or not. -/
def errors (s : Stats) : ℕ := s.byClass.getD "5xx" 0

/-- The three counts of answered requests agree. -/
structure Consistent (s : Stats) : Prop where
  /-- Every request is in one class. -/
  byClass : s.byClass.values.sum = s.sent
  /-- Every request has a latency. -/
  latencies : s.latencies.length = s.sent

theorem consistent_init : Consistent init := ⟨rfl, rfl⟩

theorem consistent_record {s : Stats} (h : Consistent s) (status : ℤ) (latency : ℚ) :
    Consistent (s.record status latency) where
  byClass := by
    have hsum := s.byClass.sum_values_set (bucket status) (s.byClass.getD (bucket status) 0 + 1)
    have hold := h.byClass
    simp only [record]
    omega
  latencies := by simp [record, h.latencies]

theorem consistent_recordDropped {s : Stats} (h : Consistent s) : Consistent s.recordDropped :=
  ⟨h.byClass, h.latencies⟩

@[simp] theorem sent_record (s : Stats) (status : ℤ) (latency : ℚ) :
    (s.record status latency).sent = s.sent + 1 := rfl

@[simp] theorem dropped_record (s : Stats) (status : ℤ) (latency : ℚ) :
    (s.record status latency).dropped = s.dropped := rfl

@[simp] theorem sent_recordDropped (s : Stats) : s.recordDropped.sent = s.sent := rfl

@[simp] theorem dropped_recordDropped (s : Stats) :
    s.recordDropped.dropped = s.dropped + 1 := rfl

/-- What recording a status does to the count of a class. -/
theorem getD_byClass_record (s : Stats) (status : ℤ) (latency : ℚ) (class_ : String) :
    (s.record status latency).byClass.getD class_ 0 =
      s.byClass.getD class_ 0 + if bucket status = class_ then 1 else 0 := by
  unfold record
  rw [Dict.getD_set]
  by_cases hclass : bucket status = class_
  · rw [if_pos hclass.symm, if_pos hclass, hclass]
  · rw [if_neg (Ne.symm hclass), if_neg hclass, Nat.add_zero]

end Stats

end Loadgen
end ObservabilityStack
