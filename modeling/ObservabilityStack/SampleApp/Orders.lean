import ObservabilityStack.SampleApp.Accounting
import ObservabilityStack.SampleApp.Service

/-!
# What `orders_created` counts

`create_order` increments the counter and returns; the middleware counts the request when the
response has come back through it, as a 201 on `/api/orders`. Between the two the task can still
be cancelled. So the two counters differ by the orders that are created and not reported: their
tasks have not left yet, or were cancelled on the way out.

The equation has four terms and is kept by every step of every task. Each term is a count over the
tasks: of orders, of responses that were counted, of tasks between the two, of tasks that were
cancelled there. Nothing is assumed about when a task is cancelled.
-/

set_option autoImplicit false

namespace ObservabilityStack
namespace SampleApp

open Transition

/-- The handler has returned an order. -/
def Handler.created (h : Handler) : Bool :=
  match h.pc with
  | .answered ⟨_, .order _⟩ => true
  | _ => false

/-- The request was answered. -/
def Task.responded (t : Task) : Bool :=
  match t.pc with
  | .finished (.response _) _ => true
  | _ => false

/-- The handler is in `create_order`, or has left it with an order. -/
def HandlerPc.ordering : HandlerPc → Bool
  | .delayed (.createOrder _) _ | .reserving _ _ _ | .answered ⟨_, .order _⟩ => true
  | _ => false

namespace Service

/-- The label values of a created order. -/
def orderLabels : String × String × String := ("POST", "/api/orders", "201")

/-- The orders that are created and not, or not yet, counted as a 201. -/
def unreported (s : Service) : ℕ :=
  (s.app.tasks.zip s.handlers).countP fun p => p.2.created && !p.1.responded

/-! ## A task and its handler

The middleware's task and the handler's place, together, since an order is known to one and its
response to the other. -/

/-- What a task and its handler have to do with each other. -/
structure Sync (t : Task) (h : Handler) : Prop where
  /-- Orders are taken by the one endpoint. -/
  order : h.pc.ordering = true →
    h.pathFormat = some "/api/orders" ∧ t.request = ⟨"POST", "/api/orders"⟩
  /-- One that is created is answered with 201, and nothing else is there. -/
  created : ∀ answer, h.pc = .answered answer →
    if h.created then answer.status = 201 else answer.status = 201 → h.pathFormat = none
  /-- A task leaves with what its handler has answered. -/
  left : ∀ outcome route, t.pc = .finished outcome route → route = routeTemplate h.pathFormat ∧
    ∀ status, outcome = .response status → ∃ answer, h.pc = .answered answer ∧
      answer.status = status

/-- All tasks and their handlers are related so. -/
def Paired (I : Task → Handler → Prop) (tasks : List Task) (handlers : List Handler) : Prop :=
  ∀ (i : ℕ) (t : Task) (h : Handler), tasks[i]? = some t → handlers[i]? = some h → I t h

section Paired

variable {I : Task → Handler → Prop} {tasks : List Task} {handlers : List Handler} {i : ℕ}
  {t t' : Task} {h h' : Handler}

theorem Paired.setHandler (hI : Paired I tasks handlers) (hh : handlers[i]? = some h)
    (ht : tasks[i]? = some t) (hnew : I t h') : Paired I tasks (handlers.set i h') := by
  intro j u k hu hk
  rw [Threads.getElem?_set hh] at hk
  split at hk
  · rename_i hij
    subst hij
    cases hk
    cases ht.symm.trans hu
    exact hnew
  · exact hI j u k hu hk

theorem Paired.setTask (hI : Paired I tasks handlers) (hh : handlers[i]? = some h)
    (ht : tasks[i]? = some t) (hnew : I t' h) : Paired I (tasks.set i t') handlers := by
  intro j u k hu hk
  rw [Threads.getElem?_set ht] at hu
  split at hu
  · rename_i hij
    subst hij
    cases hu
    cases hh.symm.trans hk
    exact hnew
  · exact hI j u k hu hk

theorem Paired.snoc (hI : Paired I tasks handlers) (hlen : handlers.length = tasks.length)
    (hnew : I t h) : Paired I (tasks ++ [t]) (handlers ++ [h]) := by
  intro j u k hu hk
  rw [List.getElem?_append] at hu hk
  split at hu
  · rename_i hlt
    rw [if_pos (hlen ▸ hlt)] at hk
    exact hI j u k hu hk
  · rename_i hge
    rw [if_neg (hlen ▸ hge), hlen] at hk
    obtain ⟨-, rfl⟩ := List.getElem?_eq_some_iff.mp hu
    obtain ⟨-, rfl⟩ := List.getElem?_eq_some_iff.mp hk
    simpa using hnew

/-- The pairs of the two lists. -/
theorem Paired.mem_zip (hI : Paired I tasks handlers) {p : Task × Handler}
    (hp : p ∈ tasks.zip handlers) : I p.1 p.2 := by
  obtain ⟨i, hi⟩ := List.mem_iff_getElem?.mp hp
  obtain ⟨ht, hh⟩ := List.getElem?_zip_eq_some.mp hi
  exact hI i p.1 p.2 ht hh

end Paired

/-! ## Steps -/

/-- The counter, and how tasks and handlers agree. -/
structure Ordered (s : Service) : Prop where
  aligned : s.Aligned
  /-- The counter counts the handlers that have created an order. -/
  counted : s.ordersCreated = s.handlers.countP Handler.created
  sync : Paired Sync s.app.tasks s.handlers

theorem ordered_init (t : ℚ) : Ordered (.init t) :=
  ⟨rfl, rfl, fun _ _ _ ht => nomatch ht⟩

/-- A status that is injected is no 201. -/
theorem num_ne_of_le {q : ℚ} (h : 500 ≤ q) : q.num ≠ 201 := by
  intro hnum
  have hden : (0 : ℚ) < q.den := by exact_mod_cast q.den_pos
  have hone : (1 : ℚ) ≤ q.den := by exact_mod_cast q.den_pos
  have heq : q * q.den = 201 := by rw [Rat.mul_den_eq_num, hnum]; rfl
  nlinarith

theorem created_eq_false {h : Handler} (hordering : h.pc.ordering = false) :
    h.created = false := by
  unfold Handler.created
  split
  · rename_i hpc
    rw [hpc] at hordering
    cases hordering
  · rfl

/-- A handler that has to do with no order and no 201 agrees with any task that waits for it. -/
theorem Sync.quiet {t : Task} {h : Handler} (hpc : t.pc = .awaiting)
    (hordering : h.pc.ordering = false)
    (hstatus : ∀ answer, h.pc = .answered answer → answer.status = 201 → h.pathFormat = none) :
    Sync t h where
  order hord := nomatch hord.symm.trans hordering
  created answer hanswer := by
    rw [created_eq_false hordering]
    exact hstatus answer hanswer
  left outcome route hfin := nomatch hpc.symm.trans hfin

/-- A handler that has no answer yet agrees with a task that waits for it. -/
theorem Sync.waiting {t : Task} {h : Handler} (hpc : t.pc = .awaiting)
    (horder : h.pc.ordering = true →
      h.pathFormat = some "/api/orders" ∧ t.request = ⟨"POST", "/api/orders"⟩)
    (hnone : ∀ answer, h.pc ≠ .answered answer) : Sync t h where
  order := horder
  created answer hanswer := absurd hanswer (hnone answer)
  left _ _ hfin := nomatch hpc.symm.trans hfin

theorem Sync.answered {t : Task} {pathFormat : Option String} {answer : Answer}
    (hpc : t.pc = .awaiting) (hordering : (HandlerPc.answered answer).ordering = false)
    (hstatus : answer.status ≠ 201) :
    Sync t ⟨pathFormat, .answered answer⟩ ∧
      Handler.created ⟨pathFormat, .answered answer⟩ = false := by
  refine ⟨.quiet hpc hordering ?_, created_eq_false hordering⟩
  intro answer' hanswer hcreated
  cases hanswer
  exact absurd hcreated hstatus

section Step

variable {sampler : ℚ → ℕ → Bool} {settings : ServiceSettings} {s s' : Service} {a : Action}

/-- One handler moves without creating an order. -/
theorem Ordered.handled {i : ℕ} {t : Task} {h h' : Handler} {faults : FaultInjector}
    (hs : s.Ordered) (hat : s.awaiting i = some (t, h)) (hold : h.created = false)
    (hnew : h'.created = false) (hsync : Sync t h') :
    ({ s with faults := faults }.setHandler i h').Ordered := by
  obtain ⟨ht, hh, -⟩ := awaiting_eq_some.mp hat
  refine ⟨?_, ?_, hs.sync.setHandler hh ht hsync⟩
  · show (s.handlers.set i h').length = _
    rw [List.length_set]
    exact hs.aligned
  · have hset := Threads.countP_set (b := h') Handler.created hh
    rw [hold, hnew] at hset
    exact hs.counted.trans hset.symm

/-- What the endpoint makes of a request when no error is injected. -/
theorem Sync.respond {t : Task} {pathFormat : Option String} {api : Api} {due now : ℚ}
    {reserve : Draw} (hpc : t.pc = .awaiting) (h : Sync t ⟨pathFormat, .delayed api due⟩) :
    Sync t ⟨pathFormat, api.respond now reserve⟩ ∧
      Handler.created ⟨pathFormat, api.respond now reserve⟩ = false := by
  cases api with
  | listItems limit =>
    simp only [Api.respond, SampleApp.listItems]
    split <;> exact Sync.answered hpc rfl (by simp [Answer.of, Except.map])
  | getItem itemId =>
    simp only [Api.respond, SampleApp.getItem]
    split <;> exact Sync.answered hpc rfl (by simp [Answer.of, Except.map])
  | createOrder payload =>
    cases hlookup : lookup payload with
    | error exc =>
      simp only [Api.respond, hlookup]
      exact Sync.answered hpc rfl (by simp [Answer.of, status_of_lookup hlookup])
    | ok item =>
      simp only [Api.respond, hlookup]
      exact ⟨.waiting hpc (fun _ => h.order rfl) (fun _ hanswer => by cases hanswer), rfl⟩
  | invalid pathFormat => exact Sync.answered hpc rfl (by simp)

/-- What `apply_faults` and the endpoint after it make of a request. -/
theorem Sync.wake {t : Task} {pathFormat : Option String} {api : Api} {due now : ℚ}
    {faults : FaultInjector} {error reserve : Draw} (hpc : t.pc = .awaiting)
    (h : Sync t ⟨pathFormat, .delayed api due⟩) :
    Sync t ⟨pathFormat, api.wake faults now error reserve⟩ ∧
      Handler.created ⟨pathFormat, api.wake faults now error reserve⟩ = false := by
  cases hdraw : faults.nextErrorStatus now error.value with
  | some status =>
    obtain ⟨fault, -, -, rfl⟩ := FaultInjector.nextErrorStatus_eq_some.mp hdraw
    simp only [Api.wake, hdraw]
    exact Sync.answered hpc rfl (num_ne_of_le fault.status_ge)
  | none =>
    simp only [Api.wake, hdraw]
    exact Sync.respond hpc h

/-- What an endpoint is called with. -/
theorem Sync.call {t : Task} {baseLatencySeconds : ℚ} {base injected : Draw}
    {endpoint : Endpoint} (hpc : t.pc = .awaiting) (hserves : endpoint.Serves t.request) :
    Sync t ⟨endpoint.pathFormat, (s.called baseLatencySeconds base injected endpoint).1⟩ ∧
      Handler.created
        ⟨endpoint.pathFormat, (s.called baseLatencySeconds base injected endpoint).1⟩ = false := by
  cases endpoint with
  | metrics | healthz | readyz | readFaults | clearFaults =>
    exact Sync.answered hpc rfl (by decide : (200 : ℤ) ≠ 201)
  -- Only the API handlers wait, and only `create_order` of them creates.
  | api api =>
    refine ⟨.waiting hpc ?_ (fun _ hanswer => by cases hanswer), rfl⟩
    intro hordering
    cases api with
    | createOrder payload => exact ⟨rfl, hserves⟩
    | listItems | getItem | invalid => cases hordering
  | setLatencyFault payload =>
    simp only [called, setLatencyFault]
    split <;> exact Sync.answered hpc rfl (by simp [Answer.of, Except.map])
  | setErrorFault payload =>
    simp only [called, setErrorFault]
    split <;> exact Sync.answered hpc rfl (by simp [Answer.of, Except.map])
  -- On a route of the application this is a refusal, with 400 or more and so never 201.
  | other pathFormat status hlt hrefused =>
    refine ⟨.quiet hpc rfl ?_, rfl⟩
    intro answer hanswer hstatus
    cases hanswer
    by_contra hne
    have hge : 400 ≤ status := hrefused hne
    have heq : status = 201 := hstatus
    omega

theorem Ordered.step (hs : s.Ordered) (h : Stepped sampler settings s a s') : s'.Ordered := by
  have haligned := h.aligned hs.aligned
  cases h with
  | elapse => exact ⟨haligned, hs.counted, hs.sync⟩
  | enter request traceId spanId =>
    refine ⟨haligned, ?_, ?_⟩
    · show s.ordersCreated = (s.handlers ++ [_]).countP Handler.created
      rw [List.countP_append, ← hs.counted]
      rfl
    -- A task that has just come in has no order and no answer.
    · have hnew : ∀ t : Task, t.pc = .awaiting → Sync t ⟨none, .routing⟩ :=
        fun t hpc => .quiet hpc rfl fun _ hanswer => nomatch hanswer
      obtain ⟨span, htasks⟩ :=
        enter_tasks sampler settings.toSettings s.app request s.time traceId spanId
      show Paired Sync (SampleApp.enter _ _ s.app request _ _ _).tasks _
      rw [htasks]
      exact hs.sync.snoc hs.aligned (hnew _ rfl)
  | call i t pathFormat endpoint base injected hat hserves =>
    have hpc := (awaiting_eq_some.mp hat).2.2
    obtain ⟨hsync, hcreated⟩ :
        Sync t ⟨endpoint.pathFormat, (s.called _ base injected endpoint).1⟩ ∧ _ :=
      Sync.call hpc hserves
    exact hs.handled hat rfl hcreated hsync
  | wake i t pathFormat api due error reserve hat hdue =>
    obtain ⟨ht, hh, hpc⟩ := awaiting_eq_some.mp hat
    obtain ⟨hsync, hcreated⟩ : Sync t ⟨pathFormat, api.wake s.faults s.time error reserve⟩ ∧ _ :=
      Sync.wake hpc (hs.sync i t _ ht hh)
    exact hs.handled hat rfl hcreated hsync
  | reserved i t pathFormat payload item due orderId hat hdue =>
    obtain ⟨ht, hh, hpc⟩ := awaiting_eq_some.mp hat
    have hold := hs.sync i t _ ht hh
    refine ⟨haligned, ?_, hs.sync.setHandler hh ht ?_⟩
    · have hset := Threads.countP_set
        (b := ⟨pathFormat, .answered ⟨201, .order (createOrder payload item orderId)⟩⟩)
        Handler.created hh
      show s.ordersCreated + 1 = _
      rw [hs.counted]
      exact hset.symm
    · refine ⟨fun _ => hold.order rfl, ?_, fun outcome route hfin => nomatch hpc.symm.trans hfin⟩
      intro answer hanswer
      cases hanswer
      exact rfl
  | crash i t h text hat hover =>
    -- A handler that has answered cannot crash any more, so no order is lost with it.
    have hold : h.created = false := by
      unfold Handler.created
      split
      · rename_i hanswered
        rw [hanswered] at hover
        cases hover
      · rfl
    exact hs.handled hat hold rfl
      (.quiet (awaiting_eq_some.mp hat).2.2 rfl fun _ hanswer => nomatch hanswer)
  | leave i t h cancelled ts outcome hat hout =>
    obtain ⟨ht, hh, hpc⟩ := awaiting_eq_some.mp hat
    have hold := hs.sync i t h ht hh
    refine ⟨haligned, hs.counted, ?_⟩
    show Paired Sync (departed _ s.app _ _ _ _ _ _).tasks _
    rw [departed_tasks]
    refine hs.sync.setTask hh ht ⟨hold.order, hold.created, ?_⟩
    intro outcome' route' hfin
    cases hfin
    refine ⟨rfl, ?_⟩
    rintro status rfl
    unfold HandlerPc.outcome at hout
    split at hout
    · cases hout
    · split at hout <;> cases hout
      rename_i answer hanswer
      exact ⟨answer, hanswer, rfl⟩

theorem Run.ordered {t : ℚ} {as : List Action} (h : Run sampler settings t as s) : s.Ordered :=
  h.invariant (ordered_init t) fun _ _ _ hs _ hn => hs.step (next_cases hn)

end Step

/-! ## What an order says

The values of an order that was created, from the body of its request and the catalogue. -/

/-- An order is made from a request and the item that was looked up for it. -/
def HandlerPriced : HandlerPc → Prop
  | .reserving payload item _ => lookup payload = .ok item
  | .answered ⟨_, .order order⟩ =>
      ∃ payload item id, lookup payload = .ok item ∧ order = createOrder payload item id
  | _ => True

theorem priced_of_called (s : Service) (baseLatencySeconds : ℚ) (base injected : Draw)
    (endpoint : Endpoint) :
    HandlerPriced (s.called baseLatencySeconds base injected endpoint).1 := by
  cases endpoint with
  | setLatencyFault payload =>
    simp only [called, setLatencyFault]
    split <;> trivial
  | setErrorFault payload =>
    simp only [called, setErrorFault]
    split <;> trivial
  | metrics | healthz | readyz | api | readFaults | clearFaults | other => trivial

theorem priced_of_wake (faults : FaultInjector) (now : ℚ) (error reserve : Draw) (api : Api) :
    HandlerPriced (api.wake faults now error reserve) := by
  unfold Api.wake
  split
  · trivial
  · cases api with
    | listItems limit =>
      simp only [Api.respond, SampleApp.listItems]
      split <;> trivial
    | getItem itemId =>
      simp only [Api.respond, SampleApp.getItem]
      split <;> trivial
    | createOrder payload =>
      simp only [Api.respond]
      split
      · trivial
      · assumption
    | invalid pathFormat => trivial

theorem Run.priced {sampler : ℚ → ℕ → Bool} {settings : ServiceSettings} {t : ℚ}
    {as : List Action} {s : Service} (h : Run sampler settings t as s) :
    ∀ hd ∈ s.handlers, HandlerPriced hd.pc := by
  refine h.invariant (I := fun s => ∀ hd ∈ s.handlers, HandlerPriced hd.pc)
    (fun _ hd => nomatch hd) ?_
  intro s a s' hs _ hn
  have hset : ∀ (i : ℕ) (new : Handler), HandlerPriced new.pc →
      ∀ hd ∈ s.handlers.set i new, HandlerPriced hd.pc := by
    intro i new hnew hd hhd
    rcases List.mem_or_eq_of_mem_set hhd with hold | rfl
    · exact hs hd hold
    · exact hnew
  cases next_cases hn with
  | elapse => exact hs
  | enter request traceId spanId =>
    intro hd hhd
    rcases List.mem_append.mp hhd with hhd | hhd
    · exact hs hd hhd
    · rw [List.mem_singleton.mp hhd]
      trivial
  | call i t pathFormat endpoint base injected hat hserves =>
    exact hset i _ (priced_of_called s _ base injected endpoint)
  | wake i t pathFormat api due error reserve hat hdue =>
    exact hset i _ (priced_of_wake s.faults s.time error reserve api)
  | reserved i t pathFormat payload item due orderId hat hdue =>
    have hlookup := hs _ (List.mem_of_getElem? (awaiting_eq_some.mp hat).2.1)
    exact hset i _ ⟨payload, item, orderId, hlookup, rfl⟩
  | crash i t h text hat hover => exact hset i _ trivial
  | leave => exact hs

/-! ## The two counters

Sums over the tasks, and the equation between them. -/

/-- A task is counted as a 201 on `/api/orders` exactly when it was answered and its handler has
    created an order. -/
theorem Sync.leftAs_iff {t : Task} {h : Handler} (hsync : Sync t h) :
    t.leftAs orderLabels = true ↔ h.created = true ∧ t.responded = true := by
  constructor
  · intro hleft
    have hlabels : t.labels = some orderLabels := of_decide_eq_true hleft
    unfold Task.labels at hlabels
    split at hlabels
    · cases hlabels
    · rename_i outcome route hpc
      split at hlabels
      · simp only [orderLabels, Option.some.injEq, Prod.mk.injEq] at hlabels
        obtain ⟨-, hroute, hstatus⟩ := hlabels
        have hcode : outcome.status = 201 := Python.intToString_injective hstatus
        obtain ⟨hleft, hanswered⟩ := hsync.left outcome route hpc
        cases outcome with
        | response status =>
          obtain ⟨answer, hanswer, heq⟩ := hanswered status rfl
          have hcreated := hsync.created answer hanswer
          refine ⟨?_, by rw [Task.responded, hpc]⟩
          by_contra hno
          rw [if_neg hno] at hcreated
          -- Without a route the path would be another one.
          rw [hleft, hcreated (heq.trans hcode)] at hroute
          exact absurd hroute (by decide)
        | exception text => cases hcode
        | cancelled => cases hcode
      · cases hlabels
  · intro ⟨hcreated, hresponded⟩
    unfold Task.responded at hresponded
    split at hresponded
    · rename_i status route hpc
      obtain ⟨hroute, hanswered⟩ := hsync.left _ route hpc
      obtain ⟨answer, hanswer, rfl⟩ := hanswered status rfl
      have hstatus := hsync.created answer hanswer
      rw [if_pos hcreated] at hstatus
      have hordering : h.pc.ordering = true := by
        by_contra hno
        rw [created_eq_false (Bool.eq_false_of_not_eq_true hno)] at hcreated
        cases hcreated
      obtain ⟨hpath, hrequest⟩ := hsync.order hordering
      have hin : t.request.instrumented = true := by
        rw [hrequest]
        decide
      refine decide_eq_true ?_
      unfold Task.labels
      rw [hpc]
      dsimp only
      rw [if_pos hin, hrequest, hroute, hpath]
      show some ("POST", "/api/orders", toString answer.status) = some orderLabels
      rw [hstatus]
      rfl
    · cases hresponded

/-- Tasks are counted with their handlers, which are as many. -/
theorem countP_zip_left {α β : Type*} {p : α → Bool} : ∀ {xs : List α} {ys : List β},
    ys.length = xs.length → (xs.zip ys).countP (fun e => p e.1) = xs.countP p
  | [], _, _ => by simp
  | x :: xs, [], h => nomatch h
  | x :: xs, y :: ys, h => by
    rw [List.zip_cons_cons, List.countP_cons, List.countP_cons,
      countP_zip_left (Nat.succ_injective h)]

theorem countP_zip_right {α β : Type*} {p : β → Bool} : ∀ {xs : List α} {ys : List β},
    ys.length = xs.length → (xs.zip ys).countP (fun e => p e.2) = ys.countP p
  | [], ys, h => by rw [List.length_eq_zero_iff.mp h]; rfl
  | x :: xs, [], h => nomatch h
  | x :: xs, y :: ys, h => by
    rw [List.zip_cons_cons, List.countP_cons, List.countP_cons,
      countP_zip_right (Nat.succ_injective h)]

/-- What is counted is counted with a second property or without it. -/
theorem countP_and_not {α : Type*} (p q : α → Bool) (xs : List α) :
    xs.countP p = xs.countP (fun x => p x && q x) + xs.countP (fun x => p x && !q x) := by
  induction xs with
  | nil => rfl
  | cons x xs ih =>
    rw [List.countP_cons, List.countP_cons, List.countP_cons, ih]
    cases p x <;> cases q x <;> simp <;> omega

theorem Run.ordersCreated_eq {sampler : ℚ → ℕ → Bool} {settings : ServiceSettings} {t : ℚ}
    {as : List Action} {s : Service} (h : Run sampler settings t as s) :
    s.ordersCreated = s.app.registry.requests.getD orderLabels 0 + s.unreported := by
  have hordered := h.ordered
  obtain ⟨haligned, bs, hrun⟩ := h.app
  have hreported : s.app.tasks.countP (Task.leftAs orderLabels) =
      (s.app.tasks.zip s.handlers).countP fun p => p.2.created && p.1.responded := by
    rw [← countP_zip_left haligned]
    refine List.countP_congr ?_
    intro p hp
    rw [(hordered.sync.mem_zip hp).leftAs_iff, Bool.and_eq_true]
  calc s.ordersCreated
      = s.handlers.countP Handler.created := hordered.counted
    _ = (s.app.tasks.zip s.handlers).countP fun p => p.2.created :=
        (countP_zip_right haligned).symm
    _ = ((s.app.tasks.zip s.handlers).countP fun p => p.2.created && p.1.responded) +
          s.unreported := countP_and_not _ _ _
    _ = s.app.registry.requests.getD orderLabels 0 + s.unreported := by
        rw [hrun.accounted.requests, hreported]

/-- **Orders are counted once on either side.** In every reachable state `orders_created` exceeds
    the 201s counted on `/api/orders` by the orders whose request has not left yet, or was
    cancelled on its way out; and every order that was returned is for an item of the catalogue, at
    its price, in a quantity that may be asked for. -/
theorem orders_created_accounted {sampler : ℚ → ℕ → Bool} {settings : ServiceSettings} {t : ℚ}
    {as : List Action} {s : Service} (h : Run sampler settings t as s) :
    s.ordersCreated = s.app.registry.requests.getD orderLabels 0 + s.unreported ∧
    ∀ hd ∈ s.handlers, ∀ status order, hd.pc = .answered ⟨status, .order order⟩ →
      ∃ item ∈ catalog.values, order.itemId = item.id ∧ 1 ≤ order.quantity ∧
        order.quantity ≤ 100 ∧ order.totalCents = item.priceCents * order.quantity := by
  refine ⟨h.ordersCreated_eq, ?_⟩
  intro hd hhd status order hpc
  have hpriced := h.priced hd hhd
  rw [hpc] at hpriced
  obtain ⟨payload, item, id, hlookup, rfl⟩ := hpriced
  exact ⟨item, (lookup_ok hlookup).2, rfl, payload.quantity_mem.1, payload.quantity_mem.2, rfl⟩

def twoClocks : OrderRequest := ⟨2, 2, by decide, by decide⟩

/-- Two orders are created, and the second client does not wait for the answer. -/
def twoOrders : List Action :=
  [.enter ⟨"POST", "/api/orders"⟩ 1 1, .enter ⟨"POST", "/api/orders"⟩ 2 2,
   .call 0 (.api (.createOrder twoClocks)) lowest lowest,
   .call 1 (.api (.createOrder twoClocks)) lowest lowest, .elapse 1, .wake 1 lowest lowest,
   .wake 0 lowest lowest, .elapse 1, .reserved 0 "a", .leave 0 false "t", .reserved 1 "b",
   .leave 1 true "t"]

theorem twoOrders_runs :
    (exec (next (fun _ _ => true) defaults) (.init 0) twoOrders).isSome := by
  decide +kernel

def twoOrdersEnd : Service :=
  (exec (next (fun _ _ => true) defaults) (.init 0) twoOrders).get twoOrders_runs

theorem orders_created_accounted_cancelled :
    twoOrdersEnd.ordersCreated = 2 ∧
      twoOrdersEnd.app.registry.requests.getD orderLabels 0 + twoOrdersEnd.unreported = 2 := by
  have hrun : Run (fun _ _ => true) defaults 0 twoOrders twoOrdersEnd :=
    steps_of_exec (Option.some_get twoOrders_runs).symm
  have hcount : twoOrdersEnd.ordersCreated = 2 := by decide +kernel
  exact ⟨hcount, (orders_created_accounted hrun).1.symm.trans hcount⟩

end Service
end SampleApp
end ObservabilityStack
