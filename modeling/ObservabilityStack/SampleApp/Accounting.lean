import ObservabilityStack.SampleApp.Middleware

/-!
# RED accounting under concurrency

The three metrics of the service are read as facts about its requests: how many there are right
now, how many finished with which status, how many were timed. `Accounted` states them against
the list of tasks, and every step keeps it, whatever the interleaving and however a request
ends, because the `finally` clause is the only way out of `dispatch` once a request is counted.

The list of tasks is a record of everything that has happened to every request, so the metrics are
three ways to read it: a count of the tasks that are inside, a count of those that are out by
label, a list of durations by label. They are proved together, since a request moves from the first
to the other two in one step.

A task that is cancelled has no status of its own. The code has set one before the `await`, and
that is the one that is counted.
-/

set_option autoImplicit false

namespace ObservabilityStack
namespace SampleApp

open Transition

/-- The task is of an instrumented request that has entered and not left. -/
def Task.inFlight (t : Task) : Bool := t.request.instrumented && t.pc = .awaiting

/-- Method, path and status of an instrumented request that has left. -/
def Task.labels (t : Task) : Option (String × String × String) :=
  match t.pc with
  | .awaiting => none
  | .finished outcome route =>
      if t.request.instrumented then some (t.request.method, route, toString outcome.status)
      else none

/-- The request has left with those labels. -/
def Task.leftAs (key : String × String × String) (t : Task) : Bool := t.labels = some key

/-- The request has left with that method and path, and any status. -/
def Task.leftAt (method path : String) (t : Task) : Bool :=
  t.labels.any fun key => key.1 = method && key.2.1 = path

structure Accounted (s : App) : Prop where
  /-- The gauge counts the tasks that are inside… -/
  inFlight : s.registry.requestsInFlight = s.tasks.countP Task.inFlight
  /-- …the counter those that have left, by label… -/
  requests : ∀ key, s.registry.requests.getD key 0 = s.tasks.countP (Task.leftAs key)
  /-- …and so does the histogram. -/
  observations : ∀ method path,
    s.registry.observations method path = s.tasks.countP (Task.leftAt method path)
  total : ∀ method path,
    s.registry.requestsTotal method path = s.registry.observations method path

theorem accounted_init : Accounted .init :=
  ⟨rfl, fun _ => rfl, fun _ _ => rfl, fun _ _ => rfl⟩

section Awaiting

variable {t : Task} (hpc : t.pc = .awaiting)

include hpc

theorem Task.labels_awaiting : t.labels = none := by
  unfold labels
  rw [hpc]

theorem Task.leftAs_awaiting (key : String × String × String) : t.leftAs key = false := by
  unfold leftAs
  rw [labels_awaiting hpc]
  rfl

theorem Task.leftAt_awaiting (method path : String) : t.leftAt method path = false := by
  unfold leftAt
  rw [labels_awaiting hpc]
  rfl

end Awaiting

section Uninstrumented

variable {t : Task} (hout : t.request.instrumented = false)

include hout

theorem Task.labels_uninstrumented : t.labels = none := by
  unfold labels
  split
  · rfl
  · rw [hout]
    rfl

/-- No count over the tasks sees a request that is not instrumented. -/
theorem Task.uncounted (key : String × String × String) (method path : String) :
    t.inFlight = false ∧ t.leftAs key = false ∧ t.leftAt method path = false := by
  unfold inFlight leftAs leftAt
  rw [hout, labels_uninstrumented hout]
  exact ⟨rfl, rfl, rfl⟩

end Uninstrumented

/-- What is not counted may come, change and go. -/
theorem countP_passed {p : Task → Bool} {old tasks : List Task}
    (hp : ∀ t : Task, t.request.instrumented = false → p t = false)
    (h : (∃ t : Task, t.request.instrumented = false ∧ tasks = old ++ [t]) ∨
      ∃ (i : ℕ) (t : Task) (pc : TaskPc), t.request.instrumented = false ∧
        old[i]? = some t ∧ tasks = old.set i { t with pc := pc }) :
    tasks.countP p = old.countP p := by
  rcases h with ⟨t, hout, rfl⟩ | ⟨i, t, pc, hout, ht, rfl⟩
  · rw [List.countP_append, List.countP_singleton, hp t hout]
    rfl
  · have hset := Threads.countP_set (b := { t with pc := pc }) p ht
    rw [hp { t with pc := pc } hout, hp t hout] at hset
    exact hset

/-- A request that leaves is counted from then on where its labels say. -/
theorem countP_left {p : Task → Bool} {tasks : List Task} {i : ℕ} {t t' : Task}
    (ht : tasks[i]? = some t) (hold : p t = false) :
    (tasks.set i t').countP p = tasks.countP p + if p t' = true then 1 else 0 := by
  have hset := Threads.countP_set (b := t') p ht
  rw [hold] at hset
  cases hp : p t' with
  | true =>
    rw [hp] at hset
    exact hset
  | false =>
    rw [hp] at hset
    exact hset

section Enters

variable {t : Task} (hin : t.request.instrumented = true) (hpc : t.pc = .awaiting)

include hin hpc

theorem Task.inFlight_awaiting : t.inFlight = true := by
  unfold inFlight
  rw [hin, hpc]
  rfl

/-- A request that enters is counted in flight, and nowhere else. -/
theorem Accounted.entered {s : App} (h : Accounted s) :
    Accounted { s with
      registry := { s.registry with requestsInFlight := s.registry.requestsInFlight + 1 }
      tasks := s.tasks ++ [t] } := by
  refine ⟨?_, ?_, ?_, h.total⟩
  · show s.registry.requestsInFlight + 1 = ((s.tasks ++ [t]).countP Task.inFlight : ℕ)
    rw [List.countP_append, List.countP_singleton, if_pos (Task.inFlight_awaiting hin hpc),
      h.inFlight]
    push_cast
    rfl
  · intro key
    show s.registry.requests.getD key 0 = (s.tasks ++ [t]).countP (Task.leftAs key)
    rw [List.countP_append, List.countP_singleton, Task.leftAs_awaiting hpc, h.requests]
    rfl
  · intro method path
    show s.registry.observations method path = (s.tasks ++ [t]).countP (Task.leftAt method path)
    rw [List.countP_append, List.countP_singleton, Task.leftAt_awaiting hpc, h.observations]
    rfl

end Enters

section Leaves

variable {t : Task} (outcome : Outcome) (route : String) (hin : t.request.instrumented = true)

include hin

theorem Task.labels_finished : Task.labels { t with pc := .finished outcome route } =
    some (t.request.method, route, toString outcome.status) :=
  if_pos hin

theorem Task.inFlight_finished :
    Task.inFlight { t with pc := .finished outcome route } = false := by
  unfold inFlight
  rw [hin]
  rfl

theorem Task.leftAs_finished (key : String × String × String) :
    Task.leftAs key { t with pc := .finished outcome route } = true ↔
      key = (t.request.method, route, toString outcome.status) := by
  unfold leftAs
  rw [labels_finished outcome route hin, decide_eq_true_iff, Option.some.injEq, eq_comm]

/-- The status does not matter here: all of them are one child of the histogram. -/
theorem Task.leftAt_finished (method path : String) :
    Task.leftAt method path { t with pc := .finished outcome route } = true ↔
      method = t.request.method ∧ path = route := by
  unfold leftAt
  rw [labels_finished outcome route hin, Option.any_some, Bool.and_eq_true, decide_eq_true_iff,
    decide_eq_true_iff, eq_comm, eq_comm (a := path)]

/-- A request that leaves is one fewer in flight, and one more under its labels. -/
theorem Accounted.finish {settings : Settings} {s : App} {i : ℕ} (h : Accounted s) (now : ℚ)
    (ts : String) (hpc : t.pc = .awaiting) (ht : s.tasks[i]? = some t) :
    Accounted (finish settings
      { s with tasks := s.tasks.set i { t with pc := .finished outcome route } }
      t outcome route now ts) := by
  refine ⟨?_, ?_, ?_, ?_⟩
  · show s.registry.requestsInFlight - 1 = ((s.tasks.set i _).countP Task.inFlight : ℕ)
    -- The gauge goes down by one and so does the number of tasks that are in flight.
    have hset := Threads.countP_set (b := { t with pc := .finished outcome route })
      Task.inFlight ht
    rw [Task.inFlight_awaiting hin hpc, Task.inFlight_finished outcome route hin] at hset
    have hcount : (s.tasks.set i { t with pc := .finished outcome route }).countP
        Task.inFlight + 1 = s.tasks.countP Task.inFlight := hset
    rw [h.inFlight, ← hcount]
    push_cast
    exact add_sub_cancel_right _ _
  · intro key
    have hleft := Task.leftAs_finished outcome route hin key
    refine (Registry.requests_observeRequest _ key).trans ?_
    refine Eq.trans ?_ (countP_left ht (Task.leftAs_awaiting hpc key)).symm
    exact congrArg₂ (· + ·) (h.requests key) (if_congr hleft.symm rfl rfl)
  · intro method path
    have hleft := Task.leftAt_finished outcome route hin method path
    refine (Registry.observations_observeRequest _ method path).trans ?_
    refine Eq.trans ?_ (countP_left ht (Task.leftAt_awaiting hpc method path)).symm
    exact congrArg₂ (· + ·) (h.observations method path) (if_congr hleft.symm rfl rfl)
  · intro method path
    refine (Registry.requestsTotal_observeRequest _ method path).trans ?_
    refine Eq.trans ?_ (Registry.observations_observeRequest _ method path).symm
    exact congrArg (· + _) (h.total method path)

end Leaves

/-- Every step keeps the accounts. -/
theorem Accounted.step {sampler : ℚ → ℕ → Bool} {settings : Settings} {s s' : App}
    (h : Accounted s) (hs : Stepped sampler settings s s') : Accounted s' := by
  cases hs with
  | entered hin hpc _ => exact h.entered hin hpc
  | left outcome route now ts hin hpc ht => exact h.finish outcome route hin now ts hpc ht
  | passed htasks =>
    refine ⟨?_, ?_, ?_, h.total⟩
    · show s.registry.requestsInFlight = _
      rw [countP_passed (fun t ht => (Task.uncounted ht ("", "", "") "" "").1) htasks]
      exact h.inFlight
    · intro key
      show s.registry.requests.getD key 0 = _
      rw [countP_passed (fun t ht => (Task.uncounted ht key "" "").2.1) htasks]
      exact h.requests key
    · intro method path
      show s.registry.observations method path = _
      rw [countP_passed (fun t ht => (Task.uncounted ht ("", "", "") method path).2.2) htasks]
      exact h.observations method path

theorem Run.accounted {sampler : ℚ → ℕ → Bool} {settings : Settings} {as : List Action} {s : App}
    (h : Run sampler settings as s) : Accounted s :=
  h.invariant accounted_init fun _ _ _ hs _ hn => hs.step (next_cases hn)

/-- A request that is not instrumented does not touch the registry. -/
theorem registry_uninstrumented {sampler : ℚ → ℕ → Bool} {settings : Settings} {s s' : App}
    {a : Action} (hout : Uninstrumented s a) (h : next sampler settings s a = some s') :
    s'.registry = s.registry := by
  cases a with
  | enter request now traceId spanId =>
    have hout : request.instrumented = false := hout
    simp only [next, enter, hout, Bool.false_eq_true, if_false, Option.some.injEq] at h
    rw [← h]
  | leave i outcome pathFormat now ts =>
    obtain ⟨t, ht, hout⟩ := hout
    simp only [next, ht, hout, Bool.false_eq_true, if_false] at h
    split at h
    · cases h
      rfl
    · cases h

/-- **The three metrics are exact in every reachable state.** -/
theorem red_accounting_exact {sampler : ℚ → ℕ → Bool} {settings : Settings} {as : List Action}
    {s : App} (h : Run sampler settings as s) :
    (s.registry.requestsInFlight = s.tasks.countP Task.inFlight ∧
      0 ≤ s.registry.requestsInFlight ∧
      ((∀ t ∈ s.tasks, t.request.instrumented = true → t.pc ≠ .awaiting) →
        s.registry.requestsInFlight = 0)) ∧
    (∀ key, s.registry.requests.getD key 0 = s.tasks.countP (Task.leftAs key)) ∧
    (∀ method path,
      s.registry.observations method path = s.tasks.countP (Task.leftAt method path) ∧
      s.registry.requestsTotal method path = s.registry.observations method path) ∧
    ∀ a s', Uninstrumented s a → next sampler settings s a = some s' →
      s'.registry = s.registry := by
  have hacc := h.accounted
  refine ⟨⟨hacc.inFlight, ?_, ?_⟩, hacc.requests, ?_, ?_⟩
  · rw [hacc.inFlight]
    exact Int.natCast_nonneg _
  · intro hleft
    have hzero : s.tasks.countP Task.inFlight = 0 := by
      rw [List.countP_eq_zero]
      intro t ht hcounts
      obtain ⟨hin, hpc⟩ := (Bool.and_eq_true _ _).mp hcounts
      exact hleft t ht hin (of_decide_eq_true hpc)
    rw [hacc.inFlight, hzero]
    rfl
  · intro method path
    exact ⟨hacc.observations method path, hacc.total method path⟩
  · intro a s' hout hn
    exact registry_uninstrumented hout hn

/-! ## Three requests at once

They overlap, and end in three ways: with a response, with an exception, and by being cancelled. -/

def demoSettings (ratio : Bool) : Settings where
  otlpEndpoint := "http://tempo:4318"
  traceSampleRatio := if ratio then 1 else 0
  ratio_nonneg := by cases ratio <;> decide +kernel
  ratio_le := by cases ratio <;> decide +kernel

/-- One is answered, one raises and one is cancelled, with a health check in between. -/
def interleaved : List Action :=
  [.enter ⟨"GET", "/api/items"⟩ 0 1 1, .enter ⟨"POST", "/api/orders"⟩ 0 2 2,
   .enter ⟨"GET", "/healthz"⟩ 1 3 3, .enter ⟨"GET", "/api/items"⟩ 1 4 4,
   .leave 1 (.exception "boom") (some "/api/orders") 2 "t", .leave 2 (.response 200) none 2 "t",
   .leave 3 .cancelled (some "/api/items") 3 "t",
   .leave 0 (.response 200) (some "/api/items") 3 "t"]

theorem interleaved_runs :
    (exec (next (fun _ _ => true) (demoSettings true)) .init interleaved).isSome := by
  decide

def interleavedEnd : App :=
  (exec (next (fun _ _ => true) (demoSettings true)) .init interleaved).get interleaved_runs

theorem red_accounting_exact_interleaved :
    interleavedEnd.registry.requestsInFlight = 0 ∧
      interleavedEnd.registry.requests.getD ("GET", "/api/items", "200") 0 = 1 ∧
      interleavedEnd.registry.requests.getD ("GET", "/api/items", "500") 0 = 1 ∧
      interleavedEnd.registry.requestsTotal "GET" "/api/items" = 2 := by
  have hrun : Run (fun _ _ => true) (demoSettings true) interleaved interleavedEnd :=
    steps_of_exec (Option.some_get interleaved_runs).symm
  obtain ⟨⟨-, -, hidle⟩, hrequests, hpaths, -⟩ := red_accounting_exact hrun
  obtain ⟨hobservations, htotal⟩ := hpaths "GET" "/api/items"
  refine ⟨hidle (by decide), ?_, ?_, ?_⟩
  · exact (hrequests _).trans (by decide)
  · exact (hrequests _).trans (by decide)
  · exact (htotal.trans hobservations).trans (by decide)

end SampleApp
end ObservabilityStack
