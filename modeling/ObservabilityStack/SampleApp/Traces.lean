import ObservabilityStack.SampleApp.Middleware

/-!
# Which trace links resolve

A trace id leaves the service in two places: as the exemplar of a latency observation, and in
the log line of a finished request. Both come from `current_trace_id`, which asks whether there
is a span and not whether it was sampled. So every finished request with a span leaves its id
behind, and the links made from them lead to a trace exactly when all of these requests were
sampled: always at the ratio 1.0 of the demo, and never for long below it.

Whether a link resolves is decided by the exporter, and so by the sampler, when the span ends; that
an id is left behind is decided earlier, without asking it. The condition is about the requests
that have finished, so it can be checked on a run. For a ratio sampler it is a condition on trace
ids.
-/

set_option autoImplicit false

namespace ObservabilityStack
namespace SampleApp

open Python (Json)
open Transition

/-- A span of the trace was handed to the exporter. -/
def Exported (s : App) (id : String) : Prop := ∃ c ∈ s.exported, formatTraceId c.traceId = id

/-- Every trace id on the latency histogram or in a log line is of an exported trace. -/
def LinksResolve (s : App) : Prop :=
  (∀ key, ∀ o ∈ s.registry.requestDuration.getD key [], ∀ id, o.exemplar = some id →
    Exported s id) ∧
  ∀ line ∈ s.lines, ∀ value, line.get? "trace_id" = some value →
    ∃ id, value = .str id ∧ Exported s id

/-- An instrumented request that has left, and whose span had a trace. -/
def Task.Traced (t : Task) : Prop :=
  t.request.instrumented = true ∧ t.pc ≠ .awaiting ∧ t.span.traceId ≠ 0

/-- Every such request was sampled, and there is an exporter. -/
def AllSampled (settings : Settings) (s : App) : Prop :=
  ∀ t ∈ s.tasks, t.Traced → t.span.sampled = true ∧ settings.otlpEndpoint ≠ ""

/-! ## What the tasks have left behind

An invariant that names, for every finished task, the exemplar and the line that carry its id. -/

/-- Ids come from traced requests, and each of those has left its id on the histogram. -/
structure Left (sampler : ℚ → ℕ → Bool) (settings : Settings) (s : App) : Prop where
  /-- What is exported was sampled. -/
  exported : ∀ c ∈ s.exported, c.sampled = true ∧ settings.otlpEndpoint ≠ "" ∧
    c.sampled = sampler settings.traceSampleRatio c.traceId
  span : ∀ t ∈ s.tasks, t.request.instrumented = true →
    t.span.sampled = sampler settings.traceSampleRatio t.span.traceId
  /-- The span of a finished task that was sampled is exported. -/
  spanEnds : ∀ t ∈ s.tasks, t.Traced → t.span.sampled = true → settings.otlpEndpoint ≠ "" →
    t.span ∈ s.exported
  /-- An exemplar is the id of a finished task… -/
  exemplar : ∀ key, ∀ o ∈ s.registry.requestDuration.getD key [], ∀ id, o.exemplar = some id →
    ∃ t ∈ s.tasks, t.Traced ∧ id = formatTraceId t.span.traceId
  /-- …and so is the id in a line. -/
  line : ∀ line ∈ s.lines, ∀ value, line.get? "trace_id" = some value →
    ∃ t ∈ s.tasks, t.Traced ∧ value = .str (formatTraceId t.span.traceId)
  /-- And every finished task with a span has left one. -/
  marked : ∀ t ∈ s.tasks, t.Traced → ∃ key, ∃ o ∈ s.registry.requestDuration.getD key [],
    o.exemplar = some (formatTraceId t.span.traceId)

/-- The id in the line of a finished request is the one `current_trace_id` gives. -/
theorem get?_requestCompleted (ts : String) (span : SpanContext) (method route : String)
    (status : ℤ) (elapsed : ℚ) :
    (Json.members (payloadPairs ts span (requestCompleted method route status elapsed))).get?
      "trace_id" = (currentTraceId span).map Json.str := by
  have hextra : (requestCompleted method route status elapsed).extra.filter
      (fun e => e.1 ∉ reservedLogFields) =
        (requestCompleted method route status elapsed).extra := by
    simp [requestCompleted, reservedLogFields]
  unfold payloadPairs
  rw [hextra]
  cases currentTraceId span with
  | none => simp [Json.members, requestCompleted, Dict.get?_set]
  | some id =>
    cases currentSpanId span with
    | none => simp [Json.members, requestCompleted, Dict.get?_set]
    | some spanId => simp [Json.members, requestCompleted, Dict.get?_set]

theorem currentTraceId_eq_some {span : SpanContext} {id : String} :
    currentTraceId span = some id ↔ span.traceId ≠ 0 ∧ id = formatTraceId span.traceId := by
  unfold currentTraceId
  split
  · rename_i hzero
    exact iff_of_false (fun h => nomatch h) fun h => h.1 hzero
  · rename_i hne
    rw [Option.some.injEq, eq_comm]
    exact ⟨fun h => ⟨hne, h⟩, And.right⟩

theorem filter_currentTraceId (span : SpanContext) :
    (currentTraceId span).filter (fun id => id ≠ "") = currentTraceId span := by
  cases h : currentTraceId span with
  | none => rfl
  | some id =>
    obtain ⟨-, rfl⟩ := currentTraceId_eq_some.mp h
    simp [formatTraceId_ne_empty]

theorem left_init (sampler : ℚ → ℕ → Bool) (settings : Settings) :
    Left sampler settings .init where
  exported _ hc := nomatch hc
  span _ ht := nomatch ht
  spanEnds _ ht := nomatch ht
  exemplar _ _ ho := nomatch ho
  line _ hl := nomatch hl
  marked _ ht := nomatch ht

/-- A task other than the one that moved is still there. -/
theorem mem_set_of_ne {tasks : List Task} {i : ℕ} {t t' u : Task} (ht : tasks[i]? = some t)
    (hu : u ∈ tasks) (hne : u ≠ t) : u ∈ tasks.set i t' := by
  obtain ⟨j, hj⟩ := List.mem_iff_getElem?.mp hu
  refine List.mem_iff_getElem?.mpr ⟨j, ?_⟩
  rw [Threads.getElem?_set ht, if_neg]
  · exact hj
  · rintro rfl
    exact hne (Option.some.inj (hj.symm.trans ht))

/-- New tasks, and changes to tasks that are not instrumented, leave nothing behind. -/
theorem Left.retask {sampler : ℚ → ℕ → Bool} {settings : Settings} {s : App} {tasks : List Task}
    {registry : Registry} (h : Left sampler settings s)
    (hregistry : registry.requestDuration = s.registry.requestDuration)
    (hkept : ∀ t ∈ s.tasks, t.Traced → t ∈ tasks)
    (hnew : ∀ t ∈ tasks, t ∈ s.tasks ∨ ¬ t.Traced ∧ (t.request.instrumented = true →
      t.span.sampled = sampler settings.traceSampleRatio t.span.traceId)) :
    Left sampler settings { s with registry := registry, tasks := tasks } := by
  -- A task that has been traced is an old one: the new ones have not left yet.
  have hold : ∀ t ∈ tasks, t.Traced → t ∈ s.tasks := by
    intro t ht htraced
    rcases hnew t ht with hmem | ⟨hno, -⟩
    · exact hmem
    · exact absurd htraced hno
  refine ⟨h.exported, ?_, ?_, ?_, ?_, ?_⟩
  · intro t ht hin
    rcases hnew t ht with hmem | ⟨-, hspan⟩
    · exact h.span t hmem hin
    · exact hspan hin
  · intro t ht htraced
    exact h.spanEnds t (hold t ht htraced) htraced
  · intro key o ho id hid
    obtain ⟨t, ht, htraced, heq⟩ := h.exemplar key o (hregistry ▸ ho) id hid
    exact ⟨t, hkept t ht htraced, htraced, heq⟩
  · intro line hl value hvalue
    obtain ⟨t, ht, htraced, heq⟩ := h.line line hl value hvalue
    exact ⟨t, hkept t ht htraced, htraced, heq⟩
  · intro t ht htraced
    obtain ⟨key, o, ho, hid⟩ := h.marked t (hold t ht htraced) htraced
    exact ⟨key, o, hregistry.symm ▸ ho, hid⟩

/-- A request without a span is not traced. -/
theorem Task.not_traced {t : Task} (hout : t.request.instrumented = false) : ¬ t.Traced :=
  fun htraced => nomatch hout.symm.trans htraced.1

theorem mem_exported_finish {settings : Settings} {s : App} {t : Task} {outcome : Outcome}
    {route ts : String} {now : ℚ} {c : SpanContext} :
    c ∈ (finish settings s t outcome route now ts).exported ↔
      c ∈ s.exported ∨ (t.span.sampled = true ∧ settings.otlpEndpoint ≠ "") ∧ c = t.span := by
  simp only [finish]
  split
  · rename_i hends
    rw [List.mem_append, List.mem_singleton, and_iff_right hends]
  · rename_i hends
    exact ⟨Or.inl, fun h => h.resolve_right fun hc => hends hc.1⟩

/-- A request that is not instrumented leaves nothing behind. -/
theorem Left.passed {sampler : ℚ → ℕ → Bool} {settings : Settings} {s : App} {tasks : List Task}
    (h : Left sampler settings s)
    (htasks : (∃ t : Task, t.request.instrumented = false ∧ tasks = s.tasks ++ [t]) ∨
      ∃ (i : ℕ) (t : Task) (pc : TaskPc), t.request.instrumented = false ∧
        s.tasks[i]? = some t ∧ tasks = s.tasks.set i { t with pc := pc }) :
    Left sampler settings { s with tasks := tasks } := by
  have hnew : ∀ t : Task, t.request.instrumented = false → ¬ t.Traced ∧
      (t.request.instrumented = true →
        t.span.sampled = sampler settings.traceSampleRatio t.span.traceId) :=
    fun t hout => ⟨Task.not_traced hout, fun hin => nomatch hout.symm.trans hin⟩
  rcases htasks with ⟨t, hout, rfl⟩ | ⟨i, t, pc, hout, ht, rfl⟩
  · refine h.retask rfl (fun u hu _ => List.mem_append_left _ hu) ?_
    intro u hu
    rcases List.mem_append.mp hu with hu | hu
    · exact Or.inl hu
    · rw [List.mem_singleton.mp hu]
      exact Or.inr (hnew t hout)
  · refine h.retask rfl ?_ ?_
    · intro u hu htraced
      -- A traced task is not the one that moved.
      refine mem_set_of_ne ht hu ?_
      rintro rfl
      exact Task.not_traced hout htraced
    · intro u hu
      rcases List.mem_or_eq_of_mem_set hu with hu | rfl
      · exact Or.inl hu
      · exact Or.inr (hnew { t with pc := pc } hout)

/-- An instrumented request that leaves puts its id on the histogram and in its line, and its
    span with the exported ones when it was sampled. -/
theorem Left.finish {sampler : ℚ → ℕ → Bool} {settings : Settings} {s : App} {i : ℕ} {t : Task}
    (h : Left sampler settings s) (outcome : Outcome) (route : String) (now : ℚ) (ts : String)
    (hin : t.request.instrumented = true) (hpc : t.pc = .awaiting) (ht : s.tasks[i]? = some t) :
    Left sampler settings (finish settings
      { s with tasks := s.tasks.set i { t with pc := .finished outcome route } }
      t outcome route now ts) := by
  have hmem : t ∈ s.tasks := List.mem_iff_getElem?.mpr ⟨i, ht⟩
  have hnew : ({ t with pc := .finished outcome route } : Task) ∈
      s.tasks.set i { t with pc := .finished outcome route } := by
    refine List.mem_iff_getElem?.mpr ⟨i, ?_⟩
    rw [Threads.getElem?_set ht, if_pos rfl]
  -- The request that leaves was awaiting until now, so it was not among the traced ones.
  have hkept : ∀ u ∈ s.tasks, u.Traced →
      u ∈ s.tasks.set i { t with pc := .finished outcome route } := by
    intro u hu htraced
    refine mem_set_of_ne ht hu ?_
    rintro rfl
    exact htraced.2.1 hpc
  have htraced : ∀ id, currentTraceId t.span = some id →
      Task.Traced { t with pc := .finished outcome route } ∧
        id = formatTraceId t.span.traceId := by
    intro id hid
    obtain ⟨hne, heq⟩ := currentTraceId_eq_some.mp hid
    exact ⟨⟨hin, fun hfin => (nomatch hfin), hne⟩, heq⟩
  refine ⟨?_, ?_, ?_, ?_, ?_, ?_⟩
  · intro c hc
    rcases mem_exported_finish.mp hc with hc | ⟨⟨hsampled, hexporter⟩, rfl⟩
    · exact h.exported c hc
    · exact ⟨hsampled, hexporter, h.span t hmem hin⟩
  · intro u hu hin'
    rcases List.mem_or_eq_of_mem_set hu with hu | rfl
    · exact h.span u hu hin'
    · exact h.span t hmem hin
  · intro u hu hut hsampled hexporter
    refine mem_exported_finish.mpr ?_
    rcases List.mem_or_eq_of_mem_set hu with hu | rfl
    · exact Or.inl (h.spanEnds u hu hut hsampled hexporter)
    · exact Or.inr ⟨⟨hsampled, hexporter⟩, rfl⟩
  · intro key o ho id hid
    rcases Registry.mem_observeRequest _ ho with ho | ⟨-, rfl⟩
    · obtain ⟨u, hu, hut, heq⟩ := h.exemplar key o ho id hid
      exact ⟨u, hkept u hu hut, hut, heq⟩
    · obtain ⟨hut, heq⟩ := htraced id ((filter_currentTraceId t.span).symm.trans hid)
      exact ⟨_, hnew, hut, heq⟩
  · intro line hl value hvalue
    rcases List.mem_append.mp hl with hl | hl
    · obtain ⟨u, hu, hut, heq⟩ := h.line line hl value hvalue
      exact ⟨u, hkept u hu hut, hut, heq⟩
    · -- The line of this request carries what `current_trace_id` returned for it.
      rw [List.mem_singleton.mp hl, get?_requestCompleted, Option.map_eq_some_iff] at hvalue
      obtain ⟨id, hid, rfl⟩ := hvalue
      obtain ⟨hut, heq⟩ := htraced id hid
      exact ⟨_, hnew, hut, congrArg Json.str heq⟩
  · intro u hu hut
    rcases List.mem_or_eq_of_mem_set hu with hu | rfl
    · obtain ⟨key, o, ho, hid⟩ := h.marked u hu hut
      exact ⟨key, o, Registry.mem_observeRequest_of_mem _ ho, hid⟩
    · refine ⟨(t.request.method, route), _, Registry.observed_mem _, ?_⟩
      exact (filter_currentTraceId t.span).trans
        (currentTraceId_eq_some.mpr ⟨hut.2.2, rfl⟩)

theorem Left.step {sampler : ℚ → ℕ → Bool} {settings : Settings} {s s' : App}
    (h : Left sampler settings s) (hs : Stepped sampler settings s s') :
    Left sampler settings s' := by
  cases hs with
  | @entered t _ hpc hspan =>
    refine h.retask rfl (fun u hu _ => List.mem_append_left _ hu) ?_
    intro u hu
    rcases List.mem_append.mp hu with hu | hu
    · exact Or.inl hu
    · rw [List.mem_singleton.mp hu]
      exact Or.inr ⟨fun htraced => htraced.2.1 hpc, fun _ => hspan⟩
  | left outcome route now ts hin hpc ht => exact h.finish outcome route now ts hin hpc ht
  | passed htasks => exact h.passed htasks

theorem Run.left {sampler : ℚ → ℕ → Bool} {settings : Settings} {as : List Action} {s : App}
    (h : Run sampler settings as s) : Left sampler settings s :=
  h.invariant (left_init sampler settings) fun _ _ _ hs _ hn => hs.step (next_cases hn)

/-- **Links resolve exactly when every traced request was sampled.** -/
theorem links_resolve_iff_sampled {sampler : ℚ → ℕ → Bool} {settings : Settings}
    {as : List Action} {s : App} (h : Run sampler settings as s) :
    LinksResolve s ↔ AllSampled settings s := by
  have hleft := h.left
  constructor
  · rintro ⟨hexemplar, -⟩ t ht htraced
    obtain ⟨key, o, ho, hid⟩ := hleft.marked t ht htraced
    obtain ⟨c, hc, heq⟩ := hexemplar key o ho _ hid
    obtain ⟨hsampled, hexporter, hdecision⟩ := hleft.exported c hc
    refine ⟨?_, hexporter⟩
    rw [hleft.span t ht htraced.1, ← formatTraceId_injective heq, ← hdecision]
    exact hsampled
  · intro hall
    have hresolves : ∀ t ∈ s.tasks, t.Traced → Exported s (formatTraceId t.span.traceId) := by
      intro t ht htraced
      obtain ⟨hsampled, hexporter⟩ := hall t ht htraced
      exact ⟨t.span, hleft.spanEnds t ht htraced hsampled hexporter, rfl⟩
    constructor
    · intro key o ho id hid
      obtain ⟨t, ht, htraced, rfl⟩ := hleft.exemplar key o ho id hid
      exact hresolves t ht htraced
    · intro line hl value hvalue
      obtain ⟨t, ht, htraced, rfl⟩ := hleft.line line hl value hvalue
      exact ⟨_, rfl, hresolves t ht htraced⟩

/-! ## The ratio sampler

The sampler of the tracing library, on ids below 2⁶⁴. -/

/-- `TraceIdRatioBased(ratio)`: the low 64 bits of the trace id against a bound. -/
def traceIdRatioBased (ratio : ℚ) (traceId : ℕ) : Bool :=
  decide ((traceId % 2 ^ 64 : ℕ) < Python.roundHalfEven (ratio * 2 ^ 64))

/-- At the ratio of the demo every trace is sampled. -/
theorem traceIdRatioBased_one (traceId : ℕ) : traceIdRatioBased 1 traceId = true := by
  have hbound : Python.roundHalfEven (1 * 2 ^ 64) = 2 ^ 64 := by decide +kernel
  unfold traceIdRatioBased
  rw [hbound, decide_eq_true_iff]
  exact_mod_cast Nat.mod_lt traceId (by decide)

/-- One request in fifty. -/
def productionSettings : Settings where
  otlpEndpoint := "http://tempo:4318"
  traceSampleRatio := 1 / 50
  ratio_nonneg := by decide +kernel
  ratio_le := by decide +kernel

/-- A request whose trace id has its high bit set is not among the one in fifty. -/
def oneRequest : List Action :=
  [.enter ⟨"GET", "/api/items"⟩ 0 (2 ^ 63) 1,
   .leave 0 (.response 200) (some "/api/items") 1 "2025-01-01T00:00:00+0000"]

theorem oneRequest_runs :
    (exec (next traceIdRatioBased productionSettings) .init oneRequest).isSome := by
  decide

def oneRequestEnd : App :=
  (exec (next traceIdRatioBased productionSettings) .init oneRequest).get oneRequest_runs

theorem run_oneRequest : Run traceIdRatioBased productionSettings oneRequest oneRequestEnd :=
  steps_of_exec (Option.some_get oneRequest_runs).symm

theorem unsampled_trace_is_linked :
    Run traceIdRatioBased productionSettings oneRequest oneRequestEnd ∧
      ¬ LinksResolve oneRequestEnd := by
  refine ⟨run_oneRequest, ?_⟩
  rintro ⟨hexemplar, -⟩
  obtain ⟨c, hc, -⟩ := hexemplar ("GET", "/api/items")
    ⟨1, some "00000000000000008000000000000000"⟩ (by decide +kernel) _ rfl
  have hnone : oneRequestEnd.exported = [] := by decide +kernel
  rw [hnone] at hc
  cases hc

theorem links_resolve_iff_sampled_oneRequest :
    LinksResolve oneRequestEnd ↔ AllSampled productionSettings oneRequestEnd :=
  links_resolve_iff_sampled run_oneRequest

end SampleApp
end ObservabilityStack
