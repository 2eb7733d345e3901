import ObservabilityStack.AlertSink.Check
import ObservabilityStack.AlertSink.Drain
import ObservabilityStack.Python.JsonRoundTrip

/-!
# From the webhook to `make check-alerts`

The check asks the sink for `/alerts/firing` and makes a row of every object in the answer. Between
the store and a row stand the threads of the server, `json.dumps` in one process and `json.loads` in
another. None of them loses or changes anything: the rows are the firing alerts of the batches
that were accepted before, in the order in which their handlers took the lock.

`json.loads` takes bytes here, and is the parameter it is in the handler and in `fetch_json`. All
that is assumed of it is that on the UTF-8 of a text it does what its scanner does, unless the value
is nested so deep that the interpreter may give up.

This is the theorem the tool exists for, and it joins the most layers: the handlers of the webhook
and of the query, the monitor that orders them, the window of the store, the writer and the reader
of JSON. Each of these has its result in its own module, and what is proved here is that they fit:
that the order of the handlers is the order of the history, and that the payload of the answer is
one of those that are read back unchanged.

Two limits of the interpreter are in the way of reading back, the depth of a document and the
length of an integer. A payload of the sink has a depth of three and no integers at all.
-/

set_option autoImplicit false

namespace ObservabilityStack
namespace AlertSink

open Python (Json startswith latin1)
open Transition

def utf8 (text : String) : List UInt8 := text.toUTF8.data.toList

/-- Arrays and objects in one another that the scanner is sure to manage: half of the default
    recursion limit. -/
def safeDepth : ℕ := 500

def ReadsText (reprFloat : String → String) (loads : List UInt8 → Except LoadsError Json) : Prop :=
  ∀ text value, Json.loads reprFloat text = some value → value.depth ≤ safeDepth →
    loads (utf8 text) = .ok value

/-- What the check prints of an alert the sink holds. -/
def ReceivedAlert.row (a : ReceivedAlert) : AlertRow where
  source := "notified"
  alertname := a.alertname
  severity := a.severity
  job := a.job
  state := a.status

/-- The object of an alert. -/
def alertObject (a : ReceivedAlert) : List (String × Json) :=
  a.asLogFields.map fun f => (f.1, .str f.2)

theorem mem_alertObject {a : ReceivedAlert} {p : String × Json} (h : p ∈ alertObject a) :
    ∃ text, p.2 = .str text := by
  obtain ⟨f, -, rfl⟩ := List.mem_map.mp h
  exact ⟨f.2, rfl⟩

theorem normal_alertObject (a : ReceivedAlert) :
    Json.normal (.obj (alertObject a)) = .obj (alertObject a) := by
  refine Json.normal_obj ?_ fun p hp => ?_
  · show ((a.asLogFields.map _).map _).Nodup
    rw [List.map_map]
    simp [ReceivedAlert.asLogFields]
  · obtain ⟨text, htext⟩ := mem_alertObject hp
    rw [htext]
    rfl

theorem readable_alertsPayload (reprFloat : String → String) (alerts : List ReceivedAlert) :
    Json.Readable reprFloat (alertsPayload alerts) := by
  refine .arr fun v hv => ?_
  obtain ⟨a, -, rfl⟩ := List.mem_map.mp hv
  refine .obj fun p hp => ?_
  obtain ⟨text, htext⟩ := mem_alertObject hp
  rw [htext]
  exact .str text

theorem normal_alertsPayload (alerts : List ReceivedAlert) :
    Json.normal (alertsPayload alerts) = alertsPayload alerts := by
  refine Json.normal_arr fun v hv => ?_
  obtain ⟨a, -, rfl⟩ := List.mem_map.mp hv
  exact normal_alertObject a

theorem depth_alertsPayload (alerts : List ReceivedAlert) :
    (alertsPayload alerts).depth ≤ 2 := by
  refine Json.depth_arr fun v hv => ?_
  obtain ⟨a, -, rfl⟩ := List.mem_map.mp hv
  refine Json.depth_obj fun p hp => ?_
  obtain ⟨text, htext⟩ := mem_alertObject hp
  rw [htext]
  exact le_refl 0

/-- The check reads the payload the sink wrote. -/
theorem loads_alertsPayload {reprFloat : String → String}
    {loads : List UInt8 → Except LoadsError Json} (hloads : ReadsText reprFloat loads)
    (alerts : List ReceivedAlert) :
    loads (Response.body ⟨.ok, alertsPayload alerts⟩) = .ok (alertsPayload alerts) := by
  refine hloads _ _ ?_ (le_trans (depth_alertsPayload alerts) (by decide))
  rw [Json.loads_dumps true (readable_alertsPayload reprFloat alerts), normal_alertsPayload]

section Rows

variable [Unicode]

theorem sinkRow_alertObject (a : ReceivedAlert) : sinkRow (alertObject a) = a.row := by
  unfold sinkRow
  rfl

theorem sinkAlerts_alertsPayload (alerts : List ReceivedAlert) :
    sinkAlerts (alertsPayload alerts) = alerts.map ReceivedAlert.row := by
  show rowsOf sinkRow (alerts.map fun a => .obj (alertObject a)) = _
  have hobjects : objects (alerts.map fun a => .obj (alertObject a)) = alerts.map alertObject := by
    unfold objects
    rw [List.filterMap_map]
    exact congrFun (List.filterMap_eq_map (f := alertObject)) alerts
  rw [rowsOf_eq, hobjects, List.map_map]
  exact List.map_congr_left fun a _ => sinkRow_alertObject a

end Rows

namespace Sink

section Step

variable [Unicode] {loads : List UInt8 → Except LoadsError Json} {s : Sink}

/-- What the handlers of those threads added, in that order. -/
def delivered (loads : List UInt8 → Except LoadsError Json) (s : Sink) (order : List ℕ) :
    List ReceivedAlert :=
  order.flatMap fun i =>
    match s.threads[i]? with
    | some (job, _) => (plan loads job).batch
    | none => []

theorem capacity_serially (store : AlertStore) (s : Sink) (order : List ℕ) :
    (serially loads store s order).capacity = store.capacity := by
  unfold serially
  induction order generalizing store with
  | nil => rfl
  | cons i order ih =>
    rw [List.foldl_cons, ih]
    cases s.threads[i]? with
    | none => rfl
    | some e =>
      show (alone loads e.1 store).2.store.capacity = store.capacity
      rw [alone_store]
      cases plan loads e.1 with
      | ask | answer | raise => rfl
      | add alerts => exact AlertStore.capacity_addAll store alerts

omit [Unicode] in
/-- An alert is not evicted as long as fewer than `capacity` came after it. -/
theorem mem_firing_iff {store : AlertStore} {history : List ReceivedAlert}
    (h : store.Holds history) {a : ReceivedAlert} :
    a ∈ store.firing ↔ ∃ older newer, history = older ++ a :: newer ∧
      (∀ b ∈ newer, AlertStore.key b ≠ AlertStore.key a) ∧ a.status = "firing" ∧
      newer.length < store.capacity := by
  rw [h.mem_firing, AlertStore.len, h, Window.length_window]
  refine exists_congr fun older => exists_congr fun newer => and_congr_right fun hsplit => ?_
  have hlength : history.length = older.length + newer.length + 1 := by
    rw [hsplit, List.length_append, List.length_cons]
    omega
  rw [hlength]
  refine and_congr_right fun _ => and_congr_right fun _ => ?_
  omega

end Step

/-- **`make check-alerts` shows what was delivered.** However the threads of the server interleave,
    a `GET /alerts/firing` that is answered makes a row for exactly the alerts that are firing: of
    those the handlers before it added, an alert counts when none of its key came later and fewer
    than the capacity came later at all. No key has two rows. -/
theorem check_shows_delivered [Unicode] {reprFloat : String → String}
    {loads : List UInt8 → Except LoadsError Json} (hloads : ReadsText reprFloat loads)
    {store : AlertStore} {history : List ReceivedAlert} (hstore : store.Holds history)
    {as : List Action} {s : Sink} (h : Run loads store as s) {i : ℕ} {job : Job}
    {response : Response} (hi : s.threads[i]? = some (job, .done (.ok response)))
    (hget : job.head.command = "GET") (hpath : startswith job.head.path "/alerts/firing" = true)
    (url : String) :
    ∃ (payload : Json) (shown : List ReceivedAlert),
      fetchJson loads url (.answered response.body) = .ok payload ∧
      sinkAlerts payload = shown.map ReceivedAlert.row ∧
      (shown.map AlertStore.key).Nodup ∧
      ∀ a, a ∈ shown ↔ ∃ older newer,
        history ++ delivered loads s (s.order.takeWhile fun j => j ≠ i) = older ++ a :: newer ∧
        (∀ b ∈ newer, AlertStore.key b ≠ AlertStore.key a) ∧ a.status = "firing" ∧
        newer.length < store.capacity := by
  -- The handler asked for the firing alerts, so its answer is that of a store which holds what
  -- the handlers before it delivered. From here on nothing about the threads is needed.
  have hplan : plan loads job = .ask .firing := by
    unfold plan planGet
    rw [if_pos hget, if_pos (show startswith (Request.ofHead job.head).path _ = true from hpath)]
  obtain ⟨-, hresponses, -⟩ := likeAlone_iff.mp (h.likeAlone hi)
  have hheld : (serially loads store s (s.order.takeWhile fun j => j ≠ i)).Holds _ :=
    serially_holds hstore s _
  have hcapacity : (serially loads store s (s.order.takeWhile fun j => j ≠ i)).capacity = _ :=
    capacity_serially store s _
  generalize serially loads store s (s.order.takeWhile fun j => j ≠ i) = served
    at hresponses hheld hcapacity
  rw [hplan] at hresponses
  have hresponse : response = ⟨.ok, alertsPayload served.firing⟩ :=
    (List.singleton_inj.mp hresponses).symm
  refine ⟨alertsPayload served.firing, served.firing, ?_, sinkAlerts_alertsPayload _, ?_, ?_⟩
  · rw [hresponse]
    simp only [fetchJson, loads_alertsPayload hloads]
  · refine (AlertStore.firing_keys_ordered served).imp fun hlt heq => ?_
    rw [heq] at hlt
    exact lt_irrefl _ hlt
  · intro a
    rw [mem_firing_iff hheld, hcapacity]
    rfl

/-- `json.loads` on UTF-8, with one message for all it refuses. -/
def loadsUtf8 (raw : List UInt8) : Except LoadsError Json :=
  match (String.fromUTF8? ⟨raw.toArray⟩).bind (Json.loads id) with
  | some value => .ok value
  | none => .error (.jsonDecode "Expecting value: line 1 column 1 (char 0)")

theorem loadsUtf8_readsText : ReadsText id loadsUtf8 := by
  intro text value hvalue _
  have hdecode : String.fromUTF8? ⟨(utf8 text).toArray⟩ = some text := by
    show String.fromUTF8? text.toByteArray = some text
    simp [String.fromUTF8?, text.isValidUTF8]
    rfl
  rw [loadsUtf8, hdecode, Option.bind_some, hvalue]

def targetDown : ReceivedAlert :=
  ⟨"pager", "firing", "TargetDown", "critical", "node", "n1", "", "", "", "f1"⟩

def holding : AlertStore := ⟨500, [targetDown], Nat.succ_pos 499, Nat.le_add_left 1 499⟩

def asked : Sink := { start holding with threads := [(get, .start)] }

theorem asked_run : @Run latin1 loadsUtf8 holding [.arrive get] asked :=
  steps_of_exec rfl

theorem asked_runs : (exec (@next latin1 loadsUtf8) asked [.step 0, .step 0, .step 0]).isSome := by
  decide +kernel

def shownEnd : Sink :=
  (exec (@next latin1 loadsUtf8) asked [.step 0, .step 0, .step 0]).get asked_runs

theorem check_shows_delivered_firing : ∃ response payload,
    shownEnd.threads[0]? = some (get, .done (.ok response)) ∧
      fetchJson loadsUtf8 "http://alert-sink:9095" (.answered response.body) = .ok payload ∧
      targetDown.row ∈ @sinkAlerts latin1 payload := by
  have hrun : @Run latin1 loadsUtf8 holding [.arrive get, .step 0, .step 0, .step 0] shownEnd :=
    asked_run.trans (steps_of_exec (Option.some_get asked_runs).symm)
  have hi : shownEnd.threads[0]? =
      some (get, .done (.ok ⟨.ok, alertsPayload holding.firing⟩)) := rfl
  obtain ⟨payload, shown, hfetch, hrows, -, hmem⟩ := @check_shows_delivered latin1 id loadsUtf8
    loadsUtf8_readsText holding [targetDown] (AlertStore.holds_items holding) _ _ hrun 0 get _ hi
    rfl (by decide) "http://alert-sink:9095"
  refine ⟨_, payload, hi, hfetch, ?_⟩
  rw [hrows]
  exact List.mem_map_of_mem ((hmem targetDown).mpr
    ⟨[], [], rfl, fun b hb => (List.not_mem_nil hb).elim, rfl, by decide⟩)

end Sink

end AlertSink
end ObservabilityStack
