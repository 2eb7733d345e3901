import Mathlib.Algebra.Order.Field.Rat
import ObservabilityStack.Lib.Dict

/-!
# `app/metrics.py`: RED metrics for the HTTP surface

A labelled metric of the client library is a dictionary from label values to children, and a
child comes into being at the first `labels(...)` call for its values: that is `Dict.set` on a
read with a default. A counter's child is its value. A histogram's child is kept as the
observations it was given, in order, since every series it exposes is a function of those.

A `Registry` is what the middleware writes to: the counter of the requests, their durations, and
the gauge. Orders are counted by their handler, and the counter is in the model of the service. The
collectors of the process and of the runtime are left out, and so are creation times and help
texts, since nothing in the repository computes with them.
-/

set_option autoImplicit false

namespace ObservabilityStack
namespace SampleApp

/-- One `observe(amount, exemplar)`; of the exemplar, the value of its one label `trace_id`. -/
structure Observation where
  amount : ℚ
  exemplar : Option String
  deriving DecidableEq

/-- The instruments of `metrics.py` that the middleware changes. A child that was never used is
    not in its dictionary, as in the exposition. -/
structure Registry where
  /-- `REQUESTS`, by method, path and status -/
  requests : Dict (String × String × String) ℕ
  /-- `REQUEST_DURATION`, by method and path -/
  requestDuration : Dict (String × String) (List Observation)
  /-- `REQUESTS_IN_FLIGHT` -/
  requestsInFlight : ℤ
  deriving DecidableEq

namespace Registry

def init : Registry := ⟨.empty, .empty, 0⟩

/-- `observe_request`. -/
def observeRequest (r : Registry) (method path : String) (status : ℤ) (durationSeconds : ℚ)
    (traceId : Option String) : Registry :=
  let child := (method, path, toString status)
  let exemplar := traceId.filter fun id => id ≠ ""
  { r with
    requests := r.requests.set child (r.requests.getD child 0 + 1)
    requestDuration := r.requestDuration.set (method, path)
      (r.requestDuration.getD (method, path) [] ++ [⟨durationSeconds, exemplar⟩]) }

/-- The number of observations of a histogram child, its `_count` series. -/
def observations (r : Registry) (method path : String) : ℕ :=
  (r.requestDuration.getD (method, path) []).length

/-- `sum without (status) (http_requests_total)` at a method and a path. -/
def requestsTotal (r : Registry) (method path : String) : ℕ :=
  r.requests.sumWhere fun key => key.1 = method && key.2.1 = path

variable (r : Registry) {method path : String} {status : ℤ} {durationSeconds : ℚ}
  {traceId : Option String}

/-- One request is one increment of one child of the counter… -/
theorem requests_observeRequest (key : String × String × String) :
    (r.observeRequest method path status durationSeconds traceId).requests.getD key 0 =
      r.requests.getD key 0 + if key = (method, path, toString status) then 1 else 0 := by
  unfold observeRequest
  dsimp only
  rw [Dict.getD_set]
  split
  · rename_i hkey
    rw [hkey]
  · rfl

/-- …one observation of one child of the histogram… -/
theorem observations_observeRequest (method' path' : String) :
    (r.observeRequest method path status durationSeconds traceId).observations method' path' =
      r.observations method' path' + if method' = method ∧ path' = path then 1 else 0 := by
  unfold observeRequest observations
  dsimp only
  rw [Dict.getD_set]
  simp only [Prod.mk.injEq]
  split
  · rename_i hkey
    rw [hkey.1, hkey.2, List.length_append, List.length_singleton]
  · rfl

/-- …and one more request in total at its method and path. -/
theorem requestsTotal_observeRequest (method' path' : String) :
    (r.observeRequest method path status durationSeconds traceId).requestsTotal method' path' =
      r.requestsTotal method' path' + if method' = method ∧ path' = path then 1 else 0 := by
  have hset := r.requests.sumWhere_set (fun key => key.1 = method' && key.2.1 = path')
    (method, path, toString status) (r.requests.getD (method, path, toString status) 0 + 1)
  unfold observeRequest requestsTotal
  dsimp only at hset ⊢
  by_cases hkey : method' = method ∧ path' = path
  · obtain ⟨rfl, rfl⟩ := hkey
    simp only [decide_true, Bool.and_self, if_true, and_self] at hset ⊢
    omega
  · have hno : (decide (method = method') && decide (path = path')) = false := by
      rw [Bool.and_eq_false_iff, decide_eq_false_iff_not, decide_eq_false_iff_not]
      by_contra hboth
      push Not at hboth
      exact hkey ⟨hboth.1.symm, hboth.2.symm⟩
    rw [hno] at hset
    simpa [hkey] using hset

/-- Every exemplar comes from an observed request, and was its trace id. -/
theorem mem_observeRequest {key : String × String} {o : Observation}
    (h : o ∈ (r.observeRequest method path status durationSeconds traceId).requestDuration.getD
      key []) :
    o ∈ r.requestDuration.getD key [] ∨
      key = (method, path) ∧ o = ⟨durationSeconds, traceId.filter fun id => id ≠ ""⟩ := by
  unfold observeRequest at h
  dsimp only at h
  rw [Dict.getD_set] at h
  split at h
  · rename_i hkey
    rcases List.mem_append.mp h with h | h
    · exact Or.inl (hkey ▸ h)
    · exact Or.inr ⟨hkey, List.mem_singleton.mp h⟩
  · exact Or.inl h

theorem observed_mem :
    (⟨durationSeconds, traceId.filter fun id => id ≠ ""⟩ : Observation) ∈
      (r.observeRequest method path status durationSeconds traceId).requestDuration.getD
        (method, path) [] := by
  unfold observeRequest
  dsimp only
  rw [Dict.getD_set, if_pos rfl]
  exact List.mem_append_right _ (List.mem_singleton.mpr rfl)

theorem mem_observeRequest_of_mem {key : String × String} {o : Observation}
    (h : o ∈ r.requestDuration.getD key []) :
    o ∈ (r.observeRequest method path status durationSeconds traceId).requestDuration.getD
      key [] := by
  unfold observeRequest
  dsimp only
  rw [Dict.getD_set]
  split
  · rename_i hkey
    exact List.mem_append_left _ (hkey ▸ h)
  · exact h

end Registry
end SampleApp
end ObservabilityStack
