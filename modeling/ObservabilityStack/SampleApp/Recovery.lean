import ObservabilityStack.SampleApp.Durations

/-!
# The service under faults

`apply_faults` is mounted on the routes of the API only. So the health endpoints and the controls
of the faults answer in any state the service can be in, without waiting for anything and without
a trace in the registry. That is what makes an incident one can end: whatever is armed, the request
that disarms it gets through.

What `DELETE /faults` ends is what is still to be drawn. A request draws its delay when its handler
is called and its error when it wakes up, so one that comes to `apply_faults` after the `DELETE`
sleeps no longer than the base latency has it sleep, and one that arrives after it does not fail,
until a fault is injected again. A request that is asleep already has drawn its delay, and sleeps
it out: `clear` touches the injector, and not the requests in flight.
-/

set_option autoImplicit false

namespace ObservabilityStack
namespace SampleApp

open Transition

/-- A health endpoint, or a control of the faults. -/
def Endpoint.operates : Endpoint → Bool
  | .api _ | .other _ _ _ _ => false
  | _ => true

namespace Service

section Exchange

variable (sampler : ℚ → ℕ → Bool) (settings : ServiceSettings)

/-- A request to an endpoint outside of the API, from its arrival to its departure. -/
def exchange (s : Service) (r : Request) (traceId spanId : ℕ) (endpoint : Endpoint)
    (base injected : Draw) (ts : String) : List Action :=
  [.enter r traceId spanId, .call s.handlers.length endpoint base injected,
   .leave s.handlers.length false ts]

/-- The service after that: one more task, which has left. -/
def exchanged (s : Service) (r : Request) (endpoint : Endpoint) (answer : Answer)
    (faults : FaultInjector) : Service :=
  { s with
    app := { s.app with tasks := s.app.tasks ++
      [⟨r, s.time, .invalid, .finished (.response answer.status)
        (routeTemplate endpoint.pathFormat)⟩] }
    faults := faults
    handlers := s.handlers ++ [⟨endpoint.pathFormat, .answered answer⟩] }

/-- What an endpoint answers depends on the registry, the faults and the clock. -/
theorem called_congr {s s' : Service} (baseLatencySeconds : ℚ) (base injected : Draw)
    (endpoint : Endpoint) (hregistry : s'.app.registry = s.app.registry)
    (hfaults : s'.faults = s.faults) (htime : s'.time = s.time) :
    s'.called baseLatencySeconds base injected endpoint =
      s.called baseLatencySeconds base injected endpoint := by
  unfold called
  rw [hregistry, hfaults, htime]

theorem set_concat_length {α : Type} (xs : List α) (a b : α) :
    (xs ++ [a]).set xs.length b = xs ++ [b] := by
  rw [List.set_append_right _ _ le_rfl, Nat.sub_self]
  rfl

/-- Without waiting, and whatever the faults. -/
theorem exchange_runs {s : Service} (hs : s.Aligned) {r : Request} {endpoint : Endpoint}
    {base injected : Draw} {answer : Answer} {faults : FaultInjector}
    (hout : r.instrumented = false) (hserves : endpoint.Serves r)
    (hcalled : s.called settings.baseLatencySeconds base injected endpoint =
      (.answered answer, faults)) (traceId spanId : ℕ) (ts : String) :
    Steps (next sampler settings) Anywhere s
      (exchange s r traceId spanId endpoint base injected ts)
      (exchanged s r endpoint answer faults) := by
  -- the request has entered
  let task : Task := ⟨r, s.time, .invalid, .awaiting⟩
  let entered : Service := { s with
    app := { s.app with tasks := s.app.tasks ++ [task] }
    handlers := s.handlers ++ [⟨none, .routing⟩] }
  have henter : next sampler settings s (.enter r traceId spanId) = some entered := by
    simp only [next, SampleApp.enter, hout]
    rfl
  -- its endpoint has been called
  let answered : Service := { entered with
    faults := faults
    handlers := s.handlers ++ [⟨endpoint.pathFormat, .answered answer⟩] }
  have htask : entered.app.tasks[s.handlers.length]? = some task := by
    rw [show s.handlers.length = s.app.tasks.length from hs]
    exact List.getElem?_concat_length
  have hcall : next sampler settings entered (.call s.handlers.length endpoint base injected) =
      some answered := by
    have hat : entered.awaiting s.handlers.length = some (task, ⟨none, .routing⟩) :=
      awaiting_eq_some.mpr ⟨htask, List.getElem?_concat_length, rfl⟩
    have hcalled' : entered.called settings.baseLatencySeconds base injected endpoint =
        (.answered answer, faults) :=
      (called_congr settings.baseLatencySeconds base injected endpoint rfl rfl rfl).trans hcalled
    simp only [next, hat]
    rw [if_pos hserves, hcalled']
    simp only [setHandler, entered, answered, set_concat_length]
  have hleave : next sampler settings answered (.leave s.handlers.length false ts) =
      some (exchanged s r endpoint answer faults) := by
    have hat : answered.awaiting s.handlers.length =
        some (task, ⟨endpoint.pathFormat, .answered answer⟩) :=
      awaiting_eq_some.mpr ⟨htask, List.getElem?_concat_length, rfl⟩
    have hdeparted : departed settings.toSettings answered.app s.handlers.length task
        (.response answer.status) (routeTemplate endpoint.pathFormat) answered.time ts =
          (exchanged s r endpoint answer faults).app := by
      simp only [departed, task, hout, Bool.false_eq_true, if_false]
      rw [show s.handlers.length = s.app.tasks.length from hs]
      simp only [answered, entered, exchanged, set_concat_length]
    simp only [next, hat, HandlerPc.outcome, Bool.false_eq_true, if_false]
    rw [next_leave htask rfl, hdeparted]
    rfl
  exact ((Steps.single trivial henter).trans (.single trivial hcall)).trans
    (.single trivial hleave)

end Exchange

/-! ## After the faults were cleared -/

/-- Neither kind of fault is injected. -/
def Quiet (events : List Event) : Prop :=
  ∀ e ∈ events, (∀ fault, ¬ e.InjectsLatency fault) ∧ ∀ fault, ¬ e.InjectsErrors fault

theorem apply_quiet {e : Event} (hl : ∀ fault, ¬ e.InjectsLatency fault)
    (he : ∀ fault, ¬ e.InjectsErrors fault) : FaultInjector.init.apply e = .init := by
  by_cases hclear : e.call = .clear
  · unfold FaultInjector.apply
    rw [hclear]
    rfl
  · exact FaultInjector.apply_silent .init hclear hl he

/-- Nothing is injected, and no request from the number `n` on has failed. -/
structure Recovered (n : ℕ) (s : Service) : Prop where
  /-- Nothing is armed. -/
  faults : s.faults = .init
  /-- The tasks before number `n` were there at the `DELETE`. -/
  le : n ≤ s.handlers.length
  /-- None of the later ones has failed. -/
  handlers : ∀ i h, n ≤ i → s.handlers[i]? = some h → ∀ answer, h.pc = .answered answer →
    answer.status < 500
  tasks : ∀ i task, n ≤ i → s.app.tasks[i]? = some task → ∀ status route,
    task.pc = .finished (.response status) route → status < 500

theorem status_of_wake_init {faults : FaultInjector} {api : Api} {now : ℚ}
    {error reserve : Draw} {answer : Answer} (hfaults : faults = .init)
    (h : api.wake faults now error reserve = .answered answer) : answer.status < 500 := by
  subst hfaults
  have hnone : FaultInjector.init.nextErrorStatus now error.value = none := rfl
  unfold Api.wake at h
  rw [hnone] at h
  exact status_of_respond h

section Step

variable {sampler : ℚ → ℕ → Bool} {settings : ServiceSettings} {t : ℚ} {n : ℕ}
  {as : List Action} {s s' : Service} {a : Action}

/-- One handler moves, and no task. -/
theorem Recovered.handled {i : ℕ} {task : Task} {h h' : Handler} {orders : ℕ}
    {faults : FaultInjector} (hs : Recovered n s) (hat : s.awaiting i = some (task, h))
    (hfaults : faults = .init)
    (hstatus : ∀ answer, h'.pc = .answered answer → answer.status < 500) :
    Recovered n ({ s with faults := faults, ordersCreated := orders }.setHandler i h') where
  faults := hfaults
  le := by
    show n ≤ (s.handlers.set i h').length
    rw [List.length_set]
    exact hs.le
  handlers j k hj hk := by
    have hset : (s.handlers.set i h')[j]? = some k := hk
    rw [Threads.getElem?_set (awaiting_eq_some.mp hat).2.1] at hset
    split at hset
    · cases hset
      exact hstatus
    · exact hs.handlers j k hj hset
  tasks := hs.tasks

theorem Recovered.step (hs : Recovered n s) (hquiet : Quiet (a.faultEvent s.time).toList)
    (h : Stepped sampler settings s a s') : Recovered n s' := by
  cases h with
  | elapse => exact ⟨hs.faults, hs.le, hs.handlers, hs.tasks⟩
  | enter request traceId spanId =>
    obtain ⟨span, htasks⟩ :=
      enter_tasks sampler settings.toSettings s.app request s.time traceId spanId
    refine ⟨hs.faults, ?_, ?_, ?_⟩
    · show n ≤ (s.handlers ++ [_]).length
      rw [List.length_append]
      exact Nat.le_add_right_of_le hs.le
    · intro j h hj hh answer hanswer
      rcases Threads.getElem?_snoc hh with hold | ⟨-, rfl⟩
      · exact hs.handlers j h hj hold answer hanswer
      · exact nomatch hanswer
    · intro j task hj htask status route hpc
      rw [htasks] at htask
      rcases Threads.getElem?_snoc htask with hold | ⟨-, rfl⟩
      · exact hs.tasks j task hj hold status route hpc
      · exact nomatch hpc
  | call i task pathFormat endpoint base injected hat hserves =>
    refine hs.handled hat ?_ fun answer hanswer => status_of_called hanswer
    -- The injector is empty, and what this call does to it is no injection.
    rw [called_faults s i, hs.faults]
    cases he : (Action.call i endpoint base injected).faultEvent s.time with
    | none => rfl
    | some e =>
      obtain ⟨hlatency, herrors⟩ := hquiet e (by rw [he]; exact List.mem_singleton.mpr rfl)
      exact apply_quiet hlatency herrors
  | wake i task pathFormat api due error reserve hat hdue =>
    exact hs.handled hat hs.faults fun answer hanswer =>
      status_of_wake_init hs.faults hanswer
  | reserved i task pathFormat payload item due orderId hat hdue =>
    refine hs.handled hat hs.faults fun answer hanswer => ?_
    cases hanswer
    exact (by decide : (201 : ℤ) < 500)
  | crash i task h text hat hover =>
    exact hs.handled hat hs.faults fun answer hanswer => nomatch hanswer
  | leave i task h cancelled ts outcome hat hout =>
    obtain ⟨htask, hh, -⟩ := awaiting_eq_some.mp hat
    refine ⟨hs.faults, hs.le, hs.handlers, ?_⟩
    intro j task' hj htask' status route hpc
    have hset : (s.app.tasks.set i _)[j]? = some task' :=
      (departed_tasks outcome (routeTemplate h.pathFormat) s.time ts) ▸ htask'
    rw [Threads.getElem?_set htask] at hset
    split at hset
    · rename_i hji
      cases hset
      cases hpc
      unfold HandlerPc.outcome at hout
      split at hout
      · cases hout
      · split at hout <;> cases hout
        rename_i answer hanswer
        exact hs.handlers i h (hji ▸ hj) hh answer hanswer
    · exact hs.tasks j task' hj hset status route hpc

end Step

theorem operates_uninstrumented {r : Request} {endpoint : Endpoint}
    (hop : endpoint.operates = true) (hserves : endpoint.Serves r) :
    r.instrumented = false := by
  cases endpoint with
  | api | other => cases hop
  | metrics | healthz | readyz | readFaults | setLatencyFault | setErrorFault | clearFaults =>
    rw [show r = _ from hserves]
    decide

/-- It answers at once. -/
theorem called_operates (s : Service) (baseLatencySeconds : ℚ) (base injected : Draw)
    {endpoint : Endpoint} (hop : endpoint.operates = true) : ∃ answer faults,
      s.called baseLatencySeconds base injected endpoint = (.answered answer, faults) ∧
      (answer.status = 200 ∨ answer.status = 422) := by
  cases endpoint with
  | api | other => cases hop
  | metrics | healthz | readyz | readFaults | clearFaults => exact ⟨_, _, rfl, Or.inl rfl⟩
  | setLatencyFault payload =>
    simp only [called, setLatencyFault]
    split
    · exact ⟨_, _, rfl, Or.inr rfl⟩
    · exact ⟨_, _, rfl, Or.inl rfl⟩
  | setErrorFault payload =>
    simp only [called, setErrorFault]
    split
    · exact ⟨_, _, rfl, Or.inr rfl⟩
    · exact ⟨_, _, rfl, Or.inl rfl⟩

/-- Until a fault is injected again. -/
theorem Recovered.steps {sampler : ℚ → ℕ → Bool} {settings : ServiceSettings} {n : ℕ}
    {bs : List Action} {s s' : Service} (hs : Recovered n s)
    (h : Steps (next sampler settings) Anywhere s bs s') (hquiet : Quiet (faultEvents s.time bs)) :
    Recovered n s' := by
  refine (invariant_clock (I := fun bs s' => Quiet (faultEvents s.time bs) → Recovered n s') h
    (fun _ => hs) ?_).1 hquiet
  intro bs s₁ a s₂ hs₁ htime hstep hquiet
  rw [faultEvents_snoc] at hquiet
  refine (hs₁ fun e he => hquiet e (List.mem_append_left _ he)).step ?_ hstep
  rw [htime]
  exact fun e he => hquiet e (List.mem_append_right _ he)

theorem faultDelay_init_le {baseLatencySeconds : ℚ} (hbase : 0 ≤ baseLatencySeconds) (now : ℚ)
    (base injected : Draw) :
    faultDelay baseLatencySeconds .init now base injected ≤ baseLatencySeconds * (14 / 10) := by
  obtain ⟨-, hdraw⟩ := FaultInjector.uniform_mem (show (6 / 10 : ℚ) ≤ 14 / 10 by norm_num)
    base.nonneg base.lt_one.le
  exact mul_le_mul_of_nonneg_left hdraw hbase

/-- A request that comes to `apply_faults` when the injector is empty is due within the base
    latency. -/
theorem Run.due_of_init {sampler : ℚ → ℕ → Bool} {settings : ServiceSettings} {t : ℚ} {i : ℕ}
    {before after : List Action} {api : Api} {base injected : Draw} {s s' : Service}
    (hbefore : Run sampler settings t before s) (hinit : s.faults = .init)
    (h : Run sampler settings t (before ++ .call i (.api api) base injected :: after) s') :
    ∃ due hd, due ≤ s.time + settings.baseLatencySeconds * (14 / 10) ∧
      s'.handlers[i]? = some hd ∧ hd.pc.Waits due s'.time := by
  obtain ⟨hblamed, htime⟩ := hbefore.blamed
  obtain ⟨-, hd, -, hhd, -, -, hwaits, -⟩ := h.delayed
  refine ⟨_, hd, ?_, hhd, hwaits⟩
  rw [← hblamed.faults, hinit, htime]
  have hdelay := faultDelay_init_le settings.base_nonneg (clock t before) base injected
  linarith

/-- **The controls stay reachable, and one call ends the incident.** From any state the service can
    be in, a request to a health endpoint or to a control of the faults can be answered before any
    time passes, and leaves no trace in the registry, the log and the exported spans, nor in
    the other tasks. After `DELETE /faults` has been, and until another fault is injected, a request
    that comes to `apply_faults` waits for no longer than the base latency has it wait, and none
    that arrives is answered with a server error. -/
theorem controls_stay_reachable {sampler : ℚ → ℕ → Bool} {settings : ServiceSettings} {t : ℚ}
    {as : List Action} {s : Service} (h : Run sampler settings t as s) :
    (∀ endpoint r, endpoint.operates = true → endpoint.Serves r →
      ∀ traceId spanId base injected ts, ∃ answer faults,
        (answer.status = 200 ∨ answer.status = 422) ∧
        Steps (next sampler settings) Anywhere s
          (exchange s r traceId spanId endpoint base injected ts)
          (exchanged s r endpoint answer faults)) ∧
    ∀ traceId spanId base injected ts, ∃ s₁,
      Steps (next sampler settings) Anywhere s
        (exchange s ⟨"DELETE", "/faults"⟩ traceId spanId .clearFaults base injected ts) s₁ ∧
      s₁ = exchanged s ⟨"DELETE", "/faults"⟩ .clearFaults
        ⟨200, .faults ⟨none, none, none, none⟩⟩ .init ∧
      ∀ bs s₂, Steps (next sampler settings) Anywhere s₁ bs s₂ →
        Quiet (faultEvents s₁.time bs) →
        (∀ before i api base injected after,
          bs = before ++ .call i (.api api) base injected :: after →
          ∃ due hd, due ≤ clock s₁.time before + settings.baseLatencySeconds * (14 / 10) ∧
            s₂.handlers[i]? = some hd ∧ hd.pc.Waits due s₂.time) ∧
        ∀ i task, s₁.app.tasks.length ≤ i → s₂.app.tasks[i]? = some task →
          ∀ status route, task.pc = .finished (.response status) route → status < 500 := by
  obtain ⟨haligned, -⟩ := h.app
  refine ⟨?_, ?_⟩
  · intro endpoint r hop hserves traceId spanId base injected ts
    obtain ⟨answer, faults, hcalled, hstatus⟩ :=
      called_operates s settings.baseLatencySeconds base injected hop
    exact ⟨answer, faults, hstatus, exchange_runs sampler settings haligned
      (operates_uninstrumented hop hserves) hserves hcalled traceId spanId ts⟩
  · intro traceId spanId base injected ts
    have hserves : Endpoint.clearFaults.Serves ⟨"DELETE", "/faults"⟩ := rfl
    have hcalled : s.called settings.baseLatencySeconds base injected .clearFaults =
        (.answered ⟨200, .faults ⟨none, none, none, none⟩⟩, .init) := rfl
    have hcleared :=
      exchange_runs sampler settings haligned (by decide) hserves hcalled traceId spanId ts
    refine ⟨_, hcleared, rfl, ?_⟩
    intro bs s₂ hrun hquiet
    -- The requests that were there are not spoken for.
    let s₁ := exchanged s ⟨"DELETE", "/faults"⟩ .clearFaults
      ⟨200, .faults ⟨none, none, none, none⟩⟩ .init
    have hlen : s₁.handlers.length = s₁.app.tasks.length := by
      simp only [s₁, exchanged, List.length_append]
      rw [show s.handlers.length = s.app.tasks.length from haligned]
      rfl
    have hfirst : Recovered s₁.app.tasks.length s₁ := by
      refine ⟨rfl, hlen.ge, ?_, ?_⟩
      · intro i hd hi hhd
        exact absurd (List.getElem?_eq_some_iff.mp hhd).1 (not_lt.mpr (hlen.le.trans hi))
      · intro i task hi htask
        exact absurd (List.getElem?_eq_some_iff.mp htask).1 (not_lt.mpr hi)
    refine ⟨?_, fun i task hi htask => (hfirst.steps hrun hquiet).tasks i task hi htask⟩
    rintro before i api base' injected' after rfl
    -- Up to the call nothing has been injected.
    obtain ⟨s₃, hbefore, -⟩ := hrun.split
    have hquiet' : Quiet (faultEvents s₁.time before) := by
      intro e he
      refine hquiet e ?_
      rw [faultEvents, stamped_append]
      exact List.mem_append_left _ he
    obtain ⟨-, htime⟩ := invariant_clock (I := fun _ _ => True) hbefore trivial
      fun _ _ _ _ _ _ _ => trivial
    have hstart := (h.trans hcleared).trans hbefore
    have hwhole := (h.trans hcleared).trans hrun
    rw [← List.append_assoc] at hwhole
    rw [← htime]
    exact Run.due_of_init hstart (hfirst.steps hbefore hquiet').faults hwhole

theorem controls_stay_reachable_failing : failingEnd.faults.errors.isSome = true ∧
    ∃ s₁, Steps (next (fun _ _ => true) defaults) Anywhere failingEnd
      (exchange failingEnd ⟨"DELETE", "/faults"⟩ 3 3 .clearFaults lowest lowest "t") s₁ ∧
      s₁.faults = .init := by
  have hrun : Run (fun _ _ => true) defaults 0 failingRun failingEnd :=
    steps_of_exec (Option.some_get failingRun_runs).symm
  obtain ⟨s₁, hsteps, hs₁, -⟩ := (controls_stay_reachable hrun).2 3 3 lowest lowest "t"
  exact ⟨by decide +kernel, s₁, hsteps, by rw [hs₁]; rfl⟩

end Service
end SampleApp
end ObservabilityStack
