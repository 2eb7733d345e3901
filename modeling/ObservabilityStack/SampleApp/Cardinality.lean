import Mathlib.Data.Finset.Prod
import Mathlib.Data.Set.Finite.Basic
import ObservabilityStack.SampleApp.Middleware

/-!
# How many series the service can create

A child of `REQUESTS` is named by a method, a path and a status, and it stays once it is there.
The path is the template of a registered route or `__unmatched__`, and the status is one the
service answers with; both range over finite sets whatever the client sends. The method is copied
from the request line, and any token is a method.

So the number of children is bounded exactly when the methods come from a finite set
(`series_bounded_iff`). `Labelled` is the invariant behind the one direction; for the other one,
`exists_run_of_methods` sends one request with each of the methods.

A set of label values is bounded only over all the runs of the service, and not in one of them,
each of which is finite. So the statement is about a set of methods that clients may send and the
number of children that any run with those methods can have created.
-/

set_option autoImplicit false

namespace ObservabilityStack
namespace SampleApp

open Transition

/-- The path labels there are: registered templates, and the bucket of all other requests. -/
def pathLabels (routes : Finset String) : Finset String := insert "__unmatched__" routes

/-- The status labels there are: those of responses, and 500 for a request that raised. -/
def statusLabels (statuses : Finset ℤ) : Finset String := (insert 500 statuses).image toString

/-- What a client can send and the application can answer: a method of the set, a registered
    route or none, a response with one of the statuses or none. -/
def Serves (methods : Set String) (routes : Finset String) (statuses : Finset ℤ) : Action → Prop
  | .enter request _ _ _ => request.method ∈ methods
  | .leave _ outcome pathFormat _ _ =>
      (∀ path, pathFormat = some path → path ∈ routes) ∧
        ∀ status, outcome = .response status → status ∈ statuses

/-- A run in which every step is one of those. -/
def Served (sampler : ℚ → ℕ → Bool) (settings : Settings) (methods : Set String)
    (routes : Finset String) (statuses : Finset ℤ) (as : List Action) (s : App) : Prop :=
  Steps (next sampler settings) (fun _ a => Serves methods routes statuses a) .init as s

section Labels

variable {sampler : ℚ → ℕ → Bool} {settings : Settings} {methods : Set String}
  {routes : Finset String} {statuses : Finset ℤ}

/-- Where the labels of the counter come from. -/
structure Labelled (methods : Set String) (routes : Finset String) (statuses : Finset ℤ)
    (s : App) : Prop where
  /-- A task has the method it was sent with. -/
  tasks : ∀ t ∈ s.tasks, t.request.method ∈ methods
  requests : ∀ key ∈ s.registry.requests.keys,
    key.1 ∈ methods ∧ key.2 ∈ pathLabels routes ×ˢ statusLabels statuses

theorem routeTemplate_mem {pathFormat : Option String}
    (h : ∀ path, pathFormat = some path → path ∈ routes) :
    routeTemplate pathFormat ∈ pathLabels routes := by
  cases pathFormat with
  | none => exact Finset.mem_insert_self _ _
  | some path => exact Finset.mem_insert_of_mem (h path rfl)

theorem status_mem {outcome : Outcome}
    (h : ∀ status, outcome = .response status → status ∈ statuses) :
    toString outcome.status ∈ statusLabels statuses := by
  apply Finset.mem_image_of_mem
  cases outcome with
  | response status => exact Finset.mem_insert_of_mem (h status rfl)
  | exception text => exact Finset.mem_insert_self _ _
  | cancelled => exact Finset.mem_insert_self _ _

/-- A finished request names one child of the counter, which is new or was there before. -/
theorem Labelled.finish {s : App} {tasks : List Task} {t : Task} {outcome : Outcome}
    {route : String} {now : ℚ} {ts : String} (h : Labelled methods routes statuses s)
    (htasks : ∀ u ∈ tasks, u.request.method ∈ methods) (hmethod : t.request.method ∈ methods)
    (hroute : route ∈ pathLabels routes)
    (hstatus : toString outcome.status ∈ statusLabels statuses) :
    Labelled methods routes statuses
      (finish settings { s with tasks := tasks } t outcome route now ts) := by
  refine ⟨htasks, ?_⟩
  intro key hkey
  have hkeys : key ∈ (s.registry.requests.set (t.request.method, route, toString outcome.status)
      (s.registry.requests.getD (t.request.method, route, toString outcome.status) 0 + 1)).keys :=
    hkey
  rw [Dict.keys_set] at hkeys
  split at hkeys
  · exact h.requests key hkeys
  · rcases List.mem_append.mp hkeys with hkeys | hkeys
    · exact h.requests key hkeys
    · rw [List.mem_singleton.mp hkeys]
      exact ⟨hmethod, Finset.mem_product.mpr ⟨hroute, hstatus⟩⟩

/-- Every step keeps the labels where they come from. -/
theorem Labelled.step {s s' : App} {a : Action} (h : Labelled methods routes statuses s)
    (hok : Serves methods routes statuses a) (hs : next sampler settings s a = some s') :
    Labelled methods routes statuses s' := by
  cases a with
  | enter request now traceId spanId =>
    simp only [next, Option.some.injEq] at hs
    subst hs
    -- The task is new, with a method of the set; the registry is not touched.
    have htask : ∀ t : Task, t.request = request →
        ∀ u ∈ s.tasks ++ [t], u.request.method ∈ methods := by
      intro t ht u hu
      rcases List.mem_append.mp hu with hu | hu
      · exact h.tasks u hu
      · rw [List.mem_singleton.mp hu, ht]
        exact hok
    unfold enter
    split
    · exact ⟨htask _ rfl, h.requests⟩
    · exact ⟨htask _ rfl, h.requests⟩
  | leave i outcome pathFormat now ts =>
    obtain ⟨hroute, hstatus⟩ := hok
    simp only [next] at hs
    split at hs
    · rename_i t ht
      have hmethod : t.request.method ∈ methods := h.tasks t (List.mem_of_getElem? ht)
      have htasks : ∀ pc, ∀ u ∈ s.tasks.set i { t with pc := pc }, u.request.method ∈ methods := by
        intro pc u hu
        rcases List.mem_or_eq_of_mem_set hu with hu | hu
        · exact h.tasks u hu
        · rw [hu]
          exact hmethod
      split at hs
      · cases hs
        split
        · exact h.finish (htasks _) hmethod (routeTemplate_mem hroute) (status_mem hstatus)
        · exact ⟨htasks _, h.requests⟩
      · cases hs
    · cases hs

theorem Served.labelled {as : List Action} {s : App}
    (h : Served sampler settings methods routes statuses as s) :
    Labelled methods routes statuses s :=
  Steps.invariant h ⟨by simp [App.init], by simp [App.init, Registry.init, Dict.keys, Dict.empty]⟩
    fun _ _ _ hI hok hs => hI.step hok hs

/-- With finitely many methods there are at most as many children as triples. -/
theorem series_le {as : List Action} {s : App} {ms : Finset String}
    (h : Served sampler settings ms routes statuses as s) :
    s.registry.requests.keys.length ≤
      ms.card * ((pathLabels routes).card * (statusLabels statuses).card) := by
  have hsub : s.registry.requests.keys.toFinset ⊆
      ms ×ˢ (pathLabels routes ×ˢ statusLabels statuses) := by
    intro key hkey
    have := h.labelled.requests key (List.mem_toFinset.mp hkey)
    exact Finset.mem_product.mpr this
  calc s.registry.requests.keys.length
      = s.registry.requests.keys.toFinset.card :=
        (List.toFinset_card_of_nodup s.registry.requests.nodup).symm
    _ ≤ (ms ×ˢ (pathLabels routes ×ˢ statusLabels statuses)).card := Finset.card_le_card hsub
    _ = ms.card * ((pathLabels routes).card * (statusLabels statuses).card) := by
        rw [Finset.card_product, Finset.card_product]

variable (sampler settings) in
/-- A request with some method for a path that no route matches, however it ends. -/
theorem unmatched_request (s : App) (m : String) (outcome : Outcome) : ∃ s₁ s₂ v,
    next sampler settings s (.enter ⟨m, "/"⟩ 0 0 0) = some s₁ ∧
    next sampler settings s₁ (.leave s.tasks.length outcome none 0 "") = some s₂ ∧
    s₂.registry.requests =
      s.registry.requests.set (m, "__unmatched__", toString outcome.status) v := by
  have hin : (Request.mk m "/").instrumented = true := by
    show (!uninstrumentedPrefixes.any fun p => Python.startswith "/" p) = true
    decide
  let t : Task := ⟨⟨m, "/"⟩, 0, ⟨0, 0, sampler settings.traceSampleRatio 0⟩, .awaiting⟩
  let s₁ : App := { s with
    registry := { s.registry with requestsInFlight := s.registry.requestsInFlight + 1 }
    tasks := s.tasks ++ [t] }
  let left : App := { s₁ with
    tasks := s₁.tasks.set s.tasks.length { t with pc := .finished outcome "__unmatched__" } }
  have henter : enter sampler settings s ⟨m, "/"⟩ 0 0 0 = s₁ := if_pos hin
  have ht : s₁.tasks[s.tasks.length]? = some t := List.getElem?_concat_length
  have hleave : next sampler settings s₁ (.leave s.tasks.length outcome none 0 "") =
      some (finish settings left t outcome "__unmatched__" 0 "") := by
    simp only [next, ht]
    rw [if_pos rfl, if_pos hin]
    rfl
  exact ⟨s₁, _, s.registry.requests.getD (m, "__unmatched__", toString outcome.status) 0 + 1,
    congrArg some henter, hleave, rfl⟩

variable (sampler settings routes) in
/-- One such request with each of the methods, and each creates a series of its own. -/
theorem exists_run_of_methods {outcome : Outcome}
    (hstatus : ∀ status, outcome = .response status → status ∈ statuses) (ms : List String)
    (hnodup : ms.Nodup) (hms : ∀ m ∈ ms, m ∈ methods) :
    ∃ as s, Served sampler settings methods routes statuses as s ∧
      s.registry.requests.keys = ms.map fun m => (m, "__unmatched__", toString outcome.status) := by
  induction ms using List.reverseRecOn with
  | nil => exact ⟨[], .init, .refl, rfl⟩
  | append_singleton ms m ih =>
    obtain ⟨hms', _, hnew⟩ := List.nodup_append.mp hnodup
    obtain ⟨as, s, hrun, hkeys⟩ := ih hms' fun m' hm' => hms m' (by simp [hm'])
    obtain ⟨s₁, s₂, v, henter, hleave, hreq⟩ := unmatched_request sampler settings s m outcome
    have hmethod : Serves methods routes statuses (.enter ⟨m, "/"⟩ 0 0 0) := hms m (by simp)
    have houtcome : Serves methods routes statuses (.leave s.tasks.length outcome none 0 "") :=
      ⟨fun _ h => absurd h (by simp), hstatus⟩
    refine ⟨_, s₂, (hrun.snoc hmethod henter).snoc houtcome hleave, ?_⟩
    have hfresh : (m, "__unmatched__", toString outcome.status) ∉ s.registry.requests.keys := by
      rw [hkeys]
      intro hmem
      obtain ⟨m', hm', heq⟩ := List.mem_map.mp hmem
      exact hnew m' hm' m (by simp) (Prod.mk.inj heq).1
    rw [hreq, Dict.keys_set, if_neg hfresh, hkeys]
    simp

variable (sampler settings routes) in
/-- Infinitely many methods, and no number bounds the series. -/
theorem not_bounded_of_infinite {outcome : Outcome}
    (hstatus : ∀ status, outcome = .response status → status ∈ statuses)
    (hinf : methods.Infinite) (bound : ℕ) :
    ∃ as s, Served sampler settings methods routes statuses as s ∧
      bound < s.registry.requests.keys.length := by
  obtain ⟨ms, hsub, hcard⟩ := hinf.exists_subset_card_eq (bound + 1)
  obtain ⟨as, s, hrun, hkeys⟩ := exists_run_of_methods sampler settings routes hstatus ms.toList
    ms.nodup_toList fun m hm => hsub (Finset.mem_toList.mp hm)
  refine ⟨as, s, hrun, ?_⟩
  rw [hkeys, List.length_map, Finset.length_toList, hcard]
  exact Nat.lt_succ_self bound

end Labels

/-- The characters of a token. -/
def isTokenChar (c : Char) : Bool := c.isAlphanum || "!#$%&'*+-.^_`|~".toList.contains c

/-- What the grammar of a request line lets a method be. -/
def IsToken (method : String) : Prop := method ≠ "" ∧ method.toList.all isTokenChar = true

theorem infinite_tokens : {m | IsToken m}.Infinite := by
  apply Set.infinite_of_injective_forall_mem
    (f := fun n : ℕ => String.ofList (List.replicate (n + 1) 'A'))
  · intro n m h
    have := congrArg List.length (String.ofList_injective h)
    simpa using this
  · intro n
    constructor
    · intro h
      have := congrArg String.toList h
      simp at this
    · simp [isTokenChar]

/-- No constant bounds the series: not even when every request has a method that is a token, and
    whatever the routes and the statuses are. -/
theorem series_unbounded : ¬ ∀ (routes : Finset String) (statuses : Finset ℤ), ∃ bound : ℕ,
    ∀ sampler settings as s, Served sampler settings {m | IsToken m} routes statuses as s →
      s.registry.requests.keys.length ≤ bound := by
  intro h
  -- No route matches, and every request is answered 404.
  obtain ⟨bound, hbound⟩ := h ∅ {404}
  have hstatus : ∀ status, Outcome.response 404 = .response status →
      status ∈ ({404} : Finset ℤ) := by
    intro status heq
    cases heq
    exact Finset.mem_singleton_self 404
  obtain ⟨as, s, hrun, hlt⟩ := not_bounded_of_infinite (fun _ _ => true)
    ⟨"", 1, by decide, le_refl 1⟩ ∅ hstatus infinite_tokens bound
  exact absurd (hbound _ _ as s hrun) (not_le.mpr hlt)

/-- **The cardinality is bounded exactly when the methods are finitely many.** -/
theorem series_bounded_iff (sampler : ℚ → ℕ → Bool) (settings : Settings)
    (routes : Finset String) (statuses : Finset ℤ) (methods : Set String) :
    (∃ bound : ℕ, ∀ as s, Served sampler settings methods routes statuses as s →
      s.registry.requests.keys.length ≤ bound) ↔ methods.Finite := by
  constructor
  · intro h
    obtain ⟨bound, hbound⟩ := h
    by_contra hinf
    -- A client that goes away needs no status.
    have hstatus : ∀ status, Outcome.cancelled = .response status → status ∈ statuses := by
      intro status heq
      cases heq
    obtain ⟨as, s, hrun, hlt⟩ := not_bounded_of_infinite sampler settings routes hstatus hinf bound
    exact absurd (hbound as s hrun) (not_le.mpr hlt)
  · intro hfin
    refine ⟨hfin.toFinset.card * ((pathLabels routes).card * (statusLabels statuses).card), ?_⟩
    intro as s hrun
    rw [← hfin.coe_toFinset] at hrun
    exact series_le hrun

end SampleApp
end ObservabilityStack
