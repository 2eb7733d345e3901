import ObservabilityStack.SampleApp.Exclusion
import ObservabilityStack.SampleApp.InjectedErrors

/-!
# What the latency histogram holds

The middleware reads the clock when a request enters and when it leaves, and observes the
difference. So the histogram of a method and a route holds the time each of its requests spent in
the service, once and in the order in which they left; and that time is no less than what
`apply_faults` had the request wait, whatever else ran meanwhile.

The observation is a difference of two readings of one clock, and between them the task was
suspended at least as long as it slept. What the two sections below relate is the order of the
departures, which is the order in the histogram, with the times that the tasks carry.

There is no upper bound. A task whose sleep is over is resumed when the event loop comes to it, and
the model lets that be any time.
-/

set_option autoImplicit false

namespace ObservabilityStack
namespace SampleApp

open Python (startswith)
open Transition

/-- The handler has begun, and is not past the sleep of `apply_faults` before it is due. -/
def HandlerPc.Waits (due now : ℚ) : HandlerPc → Prop
  | .routing => False
  | .delayed _ due' => due' = due
  | .reserving _ _ _ | .answered _ => due ≤ now
  | .crashed _ => True

namespace Service

/-- The requests in the order in which they leave, each with the time. -/
def departures (t : ℚ) (as : List Action) : List (ℕ × ℚ) :=
  stamped (fun now a => match a with | .leave i _ _ => some (i, now) | _ => none) t as

/-- How long a request had been in the service when it left, if the middleware counts it there. -/
def elapsedAt (s : Service) (method path : String) (d : ℕ × ℚ) : Option ℚ :=
  (s.app.tasks[d.1]?).bind fun task =>
    if task.leftAt method path then some (d.2 - task.started) else none

theorem departures_snoc (t : ℚ) (as : List Action) (a : Action) :
    departures t (as ++ [a]) = departures t as ++
      (match a with | .leave i _ _ => some (i, clock t as) | _ => none).toList :=
  stamped_snoc _ t as a

/-! ## The histogram is the journal of the departures

One observation for each departure of a request that is counted, appended at that moment. So the
list of a child is the list of its departures, and nothing is ever taken out of it. -/

structure Journal (t : ℚ) (as : List Action) (s : Service) : Prop where
  /-- A task leaves once. -/
  once : ((departures t as).map Prod.fst).Nodup
  /-- One that has left is finished. -/
  left : ∀ i at', (i, at') ∈ departures t as → ∃ task outcome route,
    s.app.tasks[i]? = some task ∧ task.pc = .finished outcome route
  /-- A child holds the times of the tasks that left under its labels. -/
  amounts : ∀ method path,
    (s.app.registry.requestDuration.getD (method, path) []).map Observation.amount =
      (departures t as).filterMap (s.elapsedAt method path)

theorem journal_init (t : ℚ) : Journal t [] (.init t) where
  once := List.nodup_nil
  left _ _ h := nomatch h
  amounts _ _ := rfl

section Observed

variable {settings : Settings} {s : App} {i : ℕ} {t : Task}

/-- The end of a task puts one observation where the task is counted, and none elsewhere. -/
theorem departed_amounts (outcome : Outcome) (route : String) (now : ℚ) (ts : String)
    (method path : String) :
    ((departed settings s i t outcome route now ts).registry.requestDuration.getD
        (method, path) []).map Observation.amount =
      (s.registry.requestDuration.getD (method, path) []).map Observation.amount ++
        if Task.leftAt method path { t with pc := .finished outcome route } = true
        then [now - t.started] else [] := by
  unfold departed
  dsimp only
  split
  · rename_i hin
    -- The child the request is observed under is the one it is counted for.
    have hleft : (Task.leftAt method path { t with pc := .finished outcome route } = true) ↔
        (method, path) = (t.request.method, route) := by
      unfold Task.leftAt
      rw [Task.labels_finished outcome route hin]
      simp only [Option.any_some, Bool.and_eq_true, decide_eq_true_eq, Prod.mk.injEq]
      exact and_congr eq_comm eq_comm
    simp only [finish, Registry.observeRequest, Dict.getD_set, hleft]
    split
    · rename_i hkey
      rw [hkey, List.map_append]
      rfl
    · rw [List.append_nil]
  · rename_i hout
    have hno : Task.leftAt method path { t with pc := .finished outcome route } = false :=
      (Task.uncounted (by simpa using hout) ("", "", "") method path).2.2
    rw [hno, if_neg Bool.false_ne_true, List.append_nil]

end Observed

section Step

variable {sampler : ℚ → ℕ → Bool} {settings : ServiceSettings} {t : ℚ} {as : List Action}
  {s s' : Service} {a : Action}

/-- A step after which the same requests have left, and the registry has the same observations. -/
theorem Journal.frame (hs : Journal t as s) (hdep : departures t (as ++ [a]) = departures t as)
    (htasks : ∀ (i : ℕ) (task : Task), s.app.tasks[i]? = some task →
      s'.app.tasks[i]? = some task)
    (hregistry : s'.app.registry.requestDuration = s.app.registry.requestDuration) :
    Journal t (as ++ [a]) s' where
  once := hdep ▸ hs.once
  left i at' hi := by
    obtain ⟨task, outcome, route, htask, hpc⟩ := hs.left i at' (hdep ▸ hi)
    exact ⟨task, outcome, route, htasks i task htask, hpc⟩
  amounts method path := by
    rw [hregistry, hdep, hs.amounts]
    refine List.filterMap_congr ?_
    intro d hd
    obtain ⟨task, -, -, htask, -⟩ := hs.left d.1 d.2 hd
    unfold elapsedAt
    rw [htask, htasks d.1 task htask]

/-- The end of a task that has not left before. -/
theorem Journal.leave {i : ℕ} {task : Task} {cancelled : Bool} {ts : String} {outcome : Outcome}
    {route : String} (hs : Journal t as s) (htask : s.app.tasks[i]? = some task)
    (hpc : task.pc = .awaiting)
    (hs' : s'.app = departed settings.toSettings s.app i task outcome route (clock t as) ts) :
    Journal t (as ++ [.leave i cancelled ts]) s' := by
  have hdep : departures t (as ++ [.leave i cancelled ts]) =
      departures t as ++ [(i, clock t as)] := departures_snoc t as _
  -- The task was still inside, so it is not among those that have left.
  have hnew : ∀ d ∈ departures t as, d.1 ≠ i := by
    rintro ⟨j, at'⟩ hd rfl
    obtain ⟨task', outcome', route', htask', hpc'⟩ := hs.left j at' hd
    cases htask.symm.trans htask'
    exact nomatch hpc.symm.trans hpc'
  have htasks : ∀ j, s'.app.tasks[j]? =
      if j = i then some { task with pc := .finished outcome route } else s.app.tasks[j]? := by
    intro j
    rw [hs', departed_tasks, Threads.getElem?_set htask]
  refine ⟨?_, ?_, ?_⟩
  · rw [hdep, List.map_append, List.nodup_append]
    refine ⟨hs.once, List.nodup_singleton _, ?_⟩
    intro j hj k hk
    obtain ⟨d, hd, rfl⟩ := List.mem_map.mp hj
    rw [List.mem_singleton.mp hk]
    exact hnew d hd
  · intro j at' hj
    rw [hdep] at hj
    rcases List.mem_append.mp hj with hj | hj
    · obtain ⟨task', outcome', route', htask', hpc'⟩ := hs.left j at' hj
      refine ⟨task', outcome', route', ?_, hpc'⟩
      rw [htasks, if_neg (hnew _ hj), htask']
    · cases List.mem_singleton.mp hj
      refine ⟨{ task with pc := .finished outcome route }, outcome, route, ?_, rfl⟩
      rw [htasks, if_pos rfl]
  · intro method path
    -- What the tasks before it spent is as it was, and its own time is the last in the list.
    have hold : (departures t as).filterMap (s'.elapsedAt method path) =
        (departures t as).filterMap (s.elapsedAt method path) := by
      refine List.filterMap_congr ?_
      intro d hd
      unfold elapsedAt
      rw [htasks, if_neg (hnew d hd)]
    have hlast : s'.elapsedAt method path (i, clock t as) =
        if Task.leftAt method path { task with pc := .finished outcome route } = true
        then some (clock t as - task.started) else none := by
      unfold elapsedAt
      rw [htasks, if_pos rfl]
      rfl
    rw [hs', departed_amounts, hs.amounts, hdep, List.filterMap_append, hold,
      List.filterMap_cons, hlast, List.filterMap_nil]
    by_cases hleft : Task.leftAt method path { task with pc := .finished outcome route } = true
    · rw [if_pos hleft, if_pos hleft]
    · rw [if_neg hleft, if_neg hleft]

theorem Journal.step (hs : Journal t as s) (htime : s.time = clock t as)
    (h : Stepped sampler settings s a s') : Journal t (as ++ [a]) s' := by
  cases h with
  | elapse | call | wake | reserved | crash =>
    refine hs.frame ?_ (fun _ _ h => h) rfl
    rw [departures_snoc]
    exact List.append_nil _
  | enter request traceId spanId =>
    obtain ⟨span, htasks⟩ :=
      enter_tasks sampler settings.toSettings s.app request s.time traceId spanId
    refine hs.frame ?_ ?_ ?_
    · rw [departures_snoc]
      exact List.append_nil _
    · intro i task htask
      have hlt := (List.getElem?_eq_some_iff.mp htask).1
      rw [htasks, List.getElem?_append_left hlt, htask]
    · simp only [SampleApp.enter]
      split <;> rfl
  | leave i task h cancelled ts outcome hat hout =>
    obtain ⟨htask, -, hpc⟩ := awaiting_eq_some.mp hat
    exact hs.leave htask hpc (by rw [← htime])

theorem Run.journal (h : Run sampler settings t as s) : Journal t as s :=
  (invariant_clock h (journal_init t) fun _ _ _ _ hs htime hstep => hs.step htime hstep).1

end Step

/-! ## What a request had to wait for

The delay that was drawn is in the task while it sleeps, and what has passed by the time it is
woken is at least that. -/

/-- The path of the API does not begin like an endpoint the middleware leaves out. -/
theorem instrumented_of_api {r : Request} {api : Api} (h : (Endpoint.api api).Serves r) :
    r.instrumented = true := by
  have hpath : startswith r.urlPath "/api/" = true := by
    cases api with
    | listItems limit =>
      rw [show r = ⟨"GET", "/api/items"⟩ from h]
      decide
    | getItem itemId =>
      obtain ⟨rest, hrest⟩ := startswith_iff.mp h.2
      refine startswith_iff.mpr ⟨"items/".toList ++ rest, ?_⟩
      rw [hrest, ← List.append_assoc]
      rfl
    | createOrder payload =>
      rw [show r = ⟨"POST", "/api/orders"⟩ from h]
      decide
    | invalid pathFormat => exact h
  unfold Request.instrumented
  rw [Bool.not_eq_true', List.any_eq_false]
  intro p hp hstarts
  obtain ⟨rest, hrest⟩ := startswith_iff.mp hpath
  obtain ⟨rest', hrest'⟩ := startswith_iff.mp hstarts
  have hno : ∀ p ∈ uninstrumentedPrefixes,
      ¬ p.toList <+: "/api/".toList ∧ ¬ "/api/".toList <+: p.toList := by decide
  rcases List.prefix_or_prefix_of_prefix ⟨rest, hrest.symm⟩ ⟨rest', hrest'.symm⟩ with hpre | hpre
  · exact (hno p hp).2 hpre
  · exact (hno p hp).1 hpre

theorem le_faultDelay {baseLatencySeconds : ℚ} {faults : FaultInjector} {now : ℚ}
    {base injected : Draw} {fault : LatencyFault} (hbase : 0 ≤ baseLatencySeconds)
    (hfault : (faults.state now).latency = some fault) :
    baseLatencySeconds * (6 / 10) + (fault.delayMs - fault.jitterMs) / 1000 ≤
      faultDelay baseLatencySeconds faults now base injected := by
  obtain ⟨hlow, -⟩ := FaultInjector.nextDelaySeconds_mem hfault injected.nonneg injected.lt_one.le
  obtain ⟨hdraw, -⟩ := FaultInjector.uniform_mem (show (6 / 10 : ℚ) ≤ 14 / 10 by norm_num)
    base.nonneg base.lt_one.le
  have hscaled := mul_le_mul_of_nonneg_left hdraw hbase
  have hjitter := fault.jitter_le
  unfold faultDelay
  dsimp only
  split
  · linarith
  · rename_i hnone
    linarith

/-- The request of the task number `i` had arrived by `called` and has to wait until `due`. -/
def Delayed (t called due : ℚ) (i : ℕ) (as : List Action) (s : Service) : Prop :=
  ∃ task h, s.app.tasks[i]? = some task ∧ s.handlers[i]? = some h ∧ task.started ≤ called ∧
    task.request.instrumented = true ∧ h.pc.Waits due s.time ∧
    ∀ status route, task.pc = .finished (.response status) route →
      ∃ at', (i, at') ∈ departures t as ∧ due ≤ at'

theorem waits_of_wake {due now : ℚ} {faults : FaultInjector} {error reserve : Draw} {api : Api}
    (hdue : due ≤ now) : (api.wake faults now error reserve).Waits due now := by
  unfold Api.wake
  split
  · exact hdue
  · cases api with
    | listItems | getItem | invalid => exact hdue
    | createOrder payload =>
      simp only [Api.respond]
      split <;> exact hdue

section Step

variable {sampler : ℚ → ℕ → Bool} {settings : ServiceSettings} {t called due : ℚ} {i : ℕ}
  {as : List Action} {s s' : Service} {a : Action}

/-- One handler moves, and no task. -/
theorem Delayed.handled {j : ℕ} {task : Task} {h h' : Handler} {orders : ℕ}
    {faults : FaultInjector} (hs : Delayed t called due i as s)
    (hdep : departures t (as ++ [a]) = departures t as) (hat : s.awaiting j = some (task, h))
    (hnew : h.pc.Waits due s.time → h'.pc.Waits due s.time) :
    Delayed t called due i (as ++ [a])
      ({ s with faults := faults, ordersCreated := orders }.setHandler j h') := by
  obtain ⟨mine, hmine, htask, hh, hstarted, hin, hwaits, hleft⟩ := hs
  obtain ⟨-, hj, -⟩ := awaiting_eq_some.mp hat
  have hset : (s.handlers.set j h')[i]? = if i = j then some h' else s.handlers[i]? :=
    Threads.getElem?_set hj
  by_cases hij : i = j
  · subst hij
    cases hj.symm.trans hh
    exact ⟨mine, h', htask, hset.trans (if_pos rfl), hstarted, hin, hnew hwaits, hdep ▸ hleft⟩
  · exact ⟨mine, hmine, htask, (hset.trans (if_neg hij)).trans hh, hstarted, hin, hwaits,
      hdep ▸ hleft⟩

theorem Delayed.step (hs : Delayed t called due i as s) (htime : s.time = clock t as)
    (h : Stepped sampler settings s a s') : Delayed t called due i (as ++ [a]) s' := by
  have hsame : (∀ j cancelled ts, a ≠ .leave j cancelled ts) →
      departures t (as ++ [a]) = departures t as := by
    intro hno
    rw [departures_snoc]
    split
    · exact absurd rfl (hno _ _ _)
    · exact List.append_nil _
  cases h with
  | elapse seconds hpos =>
    obtain ⟨task, h, htask, hh, hstarted, hin, hwaits, hleft⟩ := hs
    refine ⟨task, h, htask, hh, hstarted, hin, ?_, hsame (fun _ _ _ h => nomatch h) ▸ hleft⟩
    show h.pc.Waits due (s.time + seconds)
    cases hpc : h.pc with
    | routing => exact (hpc ▸ hwaits : HandlerPc.Waits due s.time .routing)
    | delayed api due' => exact (hpc ▸ hwaits : HandlerPc.Waits due s.time (.delayed api due'))
    | reserving payload item due' =>
      exact le_add_of_le_of_nonneg
        (hpc ▸ hwaits : HandlerPc.Waits due s.time (.reserving payload item due')) hpos
    | answered answer =>
      exact le_add_of_le_of_nonneg
        (hpc ▸ hwaits : HandlerPc.Waits due s.time (.answered answer)) hpos
    | crashed => trivial
  | enter request traceId spanId =>
    obtain ⟨task, h, htask, hh, hstarted, hin, hwaits, hleft⟩ := hs
    obtain ⟨span, htasks⟩ :=
      enter_tasks sampler settings.toSettings s.app request s.time traceId spanId
    refine ⟨task, h, ?_, ?_, hstarted, hin, hwaits, hsame (fun _ _ _ h => nomatch h) ▸ hleft⟩
    · have hlt := (List.getElem?_eq_some_iff.mp htask).1
      rw [htasks, List.getElem?_append_left hlt, htask]
    · have hlt := (List.getElem?_eq_some_iff.mp hh).1
      exact (List.getElem?_append_left hlt).trans hh
  | call j task pathFormat endpoint base injected hat hserves =>
    exact hs.handled (hsame fun _ _ _ h => nomatch h) hat fun hwaits => hwaits.elim
  | wake j task pathFormat api due' error reserve hat hdue =>
    refine hs.handled (hsame fun _ _ _ h => nomatch h) hat fun hwaits => waits_of_wake ?_
    exact (show due' = due from hwaits) ▸ hdue
  | reserved j task pathFormat payload item due' orderId hat hdue =>
    exact hs.handled (hsame fun _ _ _ h => nomatch h) hat fun hwaits => hwaits
  | crash j task h text hat hover =>
    exact hs.handled (hsame fun _ _ _ h => nomatch h) hat fun _ => trivial
  | leave j task h cancelled ts outcome hat hout =>
    obtain ⟨htask, hh, hpc⟩ := awaiting_eq_some.mp hat
    obtain ⟨mine, hmine, hi, hhi, hstarted, hin, hwaits, hleft⟩ := hs
    have hdep : departures t (as ++ [.leave j cancelled ts]) =
        departures t as ++ [(j, clock t as)] := departures_snoc t as _
    have hset := Threads.getElem?_set (j := i)
      (b := { task with pc := .finished outcome (routeTemplate h.pathFormat) }) htask
    -- Another task may leave meanwhile, which says nothing of this one.
    by_cases hij : i = j
    · subst hij
      cases htask.symm.trans hi
      cases hh.symm.trans hhi
      refine ⟨{ task with pc := .finished outcome (routeTemplate h.pathFormat) }, h, ?_, hh,
        hstarted, hin, hwaits, ?_⟩
      · rw [departed_tasks, hset, if_pos rfl]
      · intro status route hfin
        refine ⟨clock t as, ?_, ?_⟩
        · rw [hdep]
          exact List.mem_append_right _ (List.mem_singleton.mpr rfl)
        · -- The handler of a request that is answered is past the sleep.
          cases hfin
          unfold HandlerPc.outcome at hout
          split at hout
          · cases hout
          · split at hout <;> cases hout
            rename_i answer hanswer
            rw [hanswer] at hwaits
            exact htime ▸ hwaits
    · refine ⟨mine, hmine, ?_, hhi, hstarted, hin, hwaits, ?_⟩
      · rw [departed_tasks, hset, if_neg hij, hi]
      · intro status route hfin
        obtain ⟨at', hat', hdue⟩ := hleft status route hfin
        exact ⟨at', hdep ▸ List.mem_append_left _ hat', hdue⟩

/-- A request has arrived by the time its handler is called. -/
theorem Run.started_le (h : Run sampler settings t as s) :
    ∀ task ∈ s.app.tasks, task.started ≤ s.time := by
  refine h.invariant (I := fun s => ∀ task ∈ s.app.tasks, task.started ≤ s.time)
    (fun _ h => nomatch h) ?_
  intro s a s' hs _ hn
  cases next_cases hn with
  | elapse seconds hpos => exact fun task htask => le_add_of_le_of_nonneg (hs task htask) hpos
  | enter request traceId spanId =>
    obtain ⟨span, htasks⟩ :=
      enter_tasks sampler settings.toSettings s.app request s.time traceId spanId
    intro task htask
    rw [htasks] at htask
    rcases List.mem_append.mp htask with hold | hnew
    · exact hs task hold
    · exact (List.mem_singleton.mp hnew) ▸ le_rfl
  | call | wake | reserved | crash => exact hs
  | leave i task h cancelled ts outcome hat hout =>
    intro task' htask'
    rw [departed_tasks] at htask'
    rcases List.mem_or_eq_of_mem_set htask' with hold | rfl
    · exact hs task' hold
    · exact hs task (List.mem_of_getElem? (awaiting_eq_some.mp hat).1)

/-- The call of an endpoint of the API delays the request. -/
theorem Run.delayed {before after : List Action} {api : Api} {base injected : Draw}
    (h : Run sampler settings t (before ++ .call i (.api api) base injected :: after) s) :
    Delayed t (clock t before) (clock t before + faultDelay settings.baseLatencySeconds
        (FaultInjector.run (faultEvents t before)) (clock t before) base injected) i
      (before ++ .call i (.api api) base injected :: after) s := by
  rw [List.append_cons] at h ⊢
  obtain ⟨s₂, hfirst, hafter⟩ := h.split
  obtain ⟨s₁, hbefore, -, hn⟩ := hfirst.last
  obtain ⟨hblamed, htime⟩ := Run.blamed hbefore
  obtain ⟨-, hcalltime⟩ := Run.blamed hfirst
  have hcalled : Delayed t (clock t before) (clock t before + faultDelay
      settings.baseLatencySeconds (FaultInjector.run (faultEvents t before)) (clock t before) base
      injected) i (before ++ [.call i (.api api) base injected]) s₂ := by
    cases next_cases hn with
    | call _ task pathFormat _ _ _ hat hserves =>
      obtain ⟨htask, hh, hpc⟩ := awaiting_eq_some.mp hat
      refine ⟨task, _, htask, (Threads.getElem?_set hh).trans (if_pos rfl), ?_,
        instrumented_of_api hserves, ?_, fun _ _ hfin => nomatch hpc.symm.trans hfin⟩
      · exact htime ▸ Run.started_le hbefore task (List.mem_of_getElem? htask)
      · rw [← htime, ← hblamed.faults]
        rfl
  -- From there on every step keeps it.
  refine (invariant_clock (I := fun bs s => Delayed t (clock t before) _ i
    (before ++ [.call i (.api api) base injected] ++ bs) s) hafter (by simpa using hcalled) ?_).1
  intro bs s a s' hs hnow hstep
  rw [← List.append_assoc]
  refine hs.step ?_ hstep
  rw [hnow, hcalltime, ← clock_append]

end Step

/-- **The histogram shows what was injected.** It holds the time each request spent in the service,
    once, in the order of their departures. A request of the API that is answered has spent there
    what `apply_faults` had it wait, which is no less than the lower end of the band of the latency
    fault that was in force. -/
theorem durations_cover_delays {sampler : ℚ → ℕ → Bool} {settings : ServiceSettings} {t : ℚ}
    {as : List Action} {s : Service} (h : Run sampler settings t as s) :
    ((departures t as).map Prod.fst).Nodup ∧
    (∀ method path,
      (s.app.registry.requestDuration.getD (method, path) []).map Observation.amount =
        (departures t as).filterMap (s.elapsedAt method path)) ∧
    ∀ before i api base injected after, as = before ++ .call i (.api api) base injected :: after →
      ∀ task status route, s.app.tasks[i]? = some task →
        task.pc = .finished (.response status) route →
        ∃ at' elapsed, (i, at') ∈ departures t as ∧
          s.elapsedAt task.request.method route (i, at') = some elapsed ∧
          faultDelay settings.baseLatencySeconds (FaultInjector.run (faultEvents t before))
            (clock t before) base injected ≤ elapsed ∧
          ∀ fault, LastInjected Event.InjectsLatency (faultEvents t before) fault →
            clock t before < fault.expiresAt →
            settings.baseLatencySeconds * (6 / 10) + (fault.delayMs - fault.jitterMs) / 1000 ≤
              elapsed := by
  have hjournal := h.journal
  refine ⟨hjournal.once, hjournal.amounts, ?_⟩
  rintro before i api base injected after rfl task status route htask hpc
  -- The call was made with this fault in force; the rest is what the task waited for since.
  obtain ⟨task', hd, htask', -, hstarted, hin, -, hleft⟩ := h.delayed
  cases htask.symm.trans htask'
  obtain ⟨at', hat', hdue⟩ := hleft status route hpc
  have hlabels : task.leftAt task.request.method route = true := by
    unfold Task.leftAt Task.labels
    rw [hpc]
    simp [hin]
  have hdelay : faultDelay settings.baseLatencySeconds (FaultInjector.run (faultEvents t before))
      (clock t before) base injected ≤ at' - task.started := by linarith
  refine ⟨at', at' - task.started, hat', ?_, hdelay, ?_⟩
  · unfold elapsedAt
    rw [htask, Option.bind_some, if_pos hlabels]
  · intro fault hlast hexp
    exact (le_faultDelay settings.base_nonneg
      (FaultInjector.state_latency_run.mpr ⟨hlast, hexp⟩)).trans hdelay

theorem delay_slowed : 0 ≤ (400 : ℤ) ∧ (400 : ℤ) ≤ maxLatencyMs := by decide

theorem jitter_slowed : 0 ≤ (100 : ℤ) ∧ (100 : ℤ) ≤ maxLatencyMs := by decide

theorem ttl_slowed : 0 < (60 : ℤ) ∧ (60 : ℤ) ≤ maxTtlSeconds := by decide

/-- A delay of 400 ms, give or take 100. -/
def slowed : LatencyFaultRequest where
  delayMs := 400
  jitterMs := 100
  ttlSeconds := 60
  delay_mem := delay_slowed
  jitter_mem := jitter_slowed
  ttl_mem := ttl_slowed

/-- A request that waits for it. -/
def slowRun : List Action :=
  [.enter ⟨"POST", "/faults/latency"⟩ 1 1, .call 0 (.setLatencyFault slowed) lowest lowest,
   .enter ⟨"GET", "/api/items"⟩ 2 2, .call 1 (.api (.listItems 10)) lowest lowest, .elapse 1,
   .wake 1 lowest lowest, .leave 1 false "t"]

theorem slowRun_runs : (exec (next (fun _ _ => true) defaults) (.init 0) slowRun).isSome := by
  decide +kernel

def slowEnd : Service :=
  (exec (next (fun _ _ => true) defaults) (.init 0) slowRun).get slowRun_runs

theorem durations_cover_delays_slow : ∃ at' elapsed, (1, at') ∈ departures 0 slowRun ∧
    slowEnd.elapsedAt "GET" "/api/items" (1, at') = some elapsed ∧ 312 / 1000 ≤ elapsed := by
  have hrun : Run (fun _ _ => true) defaults 0 slowRun slowEnd :=
    steps_of_exec (Option.some_get slowRun_runs).symm
  have htask : ∃ task, slowEnd.app.tasks[1]? = some task ∧
      task.request = ⟨"GET", "/api/items"⟩ ∧
      task.pc = .finished (.response 200) "/api/items" := by decide +kernel
  obtain ⟨task, htask, hrequest, hpc⟩ := htask
  obtain ⟨at', elapsed, hat', helapsed, hdelay, -⟩ := (durations_cover_delays hrun).2.2
    (slowRun.take 3) 1 (.listItems 10) lowest lowest (slowRun.drop 4) rfl task 200 _ htask hpc
  rw [hrequest] at helapsed
  exact ⟨at', elapsed, hat', helapsed, le_trans (by decide +kernel) hdelay⟩

end Service
end SampleApp
end ObservabilityStack
