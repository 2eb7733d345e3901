import ObservabilityStack.SampleApp.Accounting

/-!
# Which requests the SLI leaves out

Infrastructure traffic is what goes to one of four endpoints or below it. The middleware tests
`url.path.startswith(UNINSTRUMENTED_PREFIXES)`, which also holds of a path that goes on after the
prefix with anything but a slash. Such a path straddles the boundary: it is no infrastructure
endpoint, no route of the service begins like that, and its requests are not counted.

`Classified` is what the exclusion is for, said of one path and every step of every run.

The two notions are compared on the path that the middleware is given, as characters. A prefix that
ends in a slash would have been another test, and an equality another one again; the condition says
for which paths the difference shows.
-/

set_option autoImplicit false

namespace ObservabilityStack
namespace SampleApp

open Python (startswith)
open Transition

/-! ## Prefixes of a path

A path is below another one if it goes on with a slash, or does not go on. -/

theorem startswith_iff {s p : String} :
    startswith s p = true ↔ ∃ rest, s.toList = p.toList ++ rest := by
  unfold startswith
  rw [List.isPrefixOf_iff_prefix]
  exact ⟨fun ⟨rest, h⟩ => ⟨rest, h.symm⟩, fun ⟨rest, h⟩ => ⟨rest, h.symm⟩⟩

/-- The path is one of the endpoints or below one. -/
def Infrastructure (path : String) : Prop :=
  ∃ p ∈ uninstrumentedPrefixes, path = p ∨ startswith path (p ++ "/") = true

/-- The path goes on after one of the endpoints, and not with a slash. -/
def Straddles (path : String) : Prop :=
  ∃ p ∈ uninstrumentedPrefixes, ∃ c rest, path.toList = p.toList ++ c :: rest ∧ c ≠ '/'

theorem below_iff {path p : String} :
    startswith path (p ++ "/") = true ↔ ∃ rest, path.toList = p.toList ++ '/' :: rest := by
  rw [startswith_iff]
  simp

/-- No endpoint begins like another one. -/
theorem prefixes_incomparable : ∀ p ∈ uninstrumentedPrefixes, ∀ q ∈ uninstrumentedPrefixes,
    p.toList <+: q.toList → p = q := by
  decide

/-- A path begins with at most one of the endpoints. -/
theorem prefix_unique {path : List Char} {p q : String} (hp : p ∈ uninstrumentedPrefixes)
    (hq : q ∈ uninstrumentedPrefixes) (hpp : p.toList <+: path) (hqp : q.toList <+: path) :
    p = q := by
  rcases List.prefix_or_prefix_of_prefix hpp hqp with h | h
  · exact prefixes_incomparable p hp q hq h
  · exact (prefixes_incomparable q hq p hp h).symm

theorem Straddles.not_infrastructure {path : String} (h : Straddles path) :
    ¬ Infrastructure path := by
  obtain ⟨p, hp, c, rest, hpath, hc⟩ := h
  intro hinf
  obtain ⟨q, hq, hq'⟩ := hinf
  have hpp : p.toList <+: path.toList := ⟨c :: rest, hpath.symm⟩
  rcases hq' with rfl | hbelow
  · obtain rfl := prefix_unique hp hq hpp (List.prefix_refl _)
    simp at hpath
  · obtain ⟨rest', hpath'⟩ := below_iff.mp hbelow
    obtain rfl := prefix_unique hp hq hpp ⟨'/' :: rest', hpath'.symm⟩
    rw [hpath] at hpath'
    exact hc (List.cons.inj (List.append_cancel_left hpath')).1

/-- What the middleware leaves out is the infrastructure, and what straddles its boundary. -/
theorem instrumented_eq_false_iff {r : Request} :
    r.instrumented = false ↔ Infrastructure r.urlPath ∨ Straddles r.urlPath := by
  have hany : r.instrumented = false ↔
      ∃ p ∈ uninstrumentedPrefixes, startswith r.urlPath p = true := by
    simp [Request.instrumented]
  rw [hany]
  constructor
  · intro h
    obtain ⟨p, hp, hstarts⟩ := h
    obtain ⟨rest, hpath⟩ := startswith_iff.mp hstarts
    cases rest with
    | nil => exact Or.inl ⟨p, hp, Or.inl (String.toList_inj.mp (by simpa using hpath))⟩
    | cons c rest =>
      by_cases hc : c = '/'
      · exact Or.inl ⟨p, hp, Or.inr (below_iff.mpr ⟨rest, hc ▸ hpath⟩)⟩
      · exact Or.inr ⟨p, hp, c, rest, hpath, hc⟩
  · intro h
    rcases h with ⟨p, hp, rfl | hbelow⟩ | ⟨p, hp, c, rest, hpath, -⟩
    · exact ⟨r.urlPath, hp, startswith_iff.mpr ⟨[], by simp⟩⟩
    · obtain ⟨rest, hpath⟩ := below_iff.mp hbelow
      exact ⟨p, hp, startswith_iff.mpr ⟨_, hpath⟩⟩
    · exact ⟨p, hp, startswith_iff.mpr ⟨_, hpath⟩⟩

/-! ## What a step adds to the counter

One request is one increment, at its departure, or none at all if its path is left out. -/

/-- The step is of a request to that path. -/
def Concerns (path : String) (s : App) : Action → Prop
  | .enter request _ _ _ => request.urlPath = path
  | .leave i _ _ _ _ => ∃ t, s.tasks[i]? = some t ∧ t.request.urlPath = path

/-- The child of `REQUESTS` a request is to be counted under, when the step is its last. -/
def countedUnder (s : App) : Action → Option (String × String × String)
  | .enter _ _ _ _ => none
  | .leave i outcome pathFormat _ _ =>
      s.tasks[i]?.map fun t => (t.request.method, routeTemplate pathFormat, toString outcome.status)

/-- The steps of requests to that path leave the counter as it is. -/
def LeftUncounted (path : String) : Prop :=
  ∀ sampler settings as s a s', Run sampler settings as s → Concerns path s a →
    next sampler settings s a = some s' → s'.registry.requests = s.registry.requests

/-- A request to that path adds one when it leaves, under its labels, and nothing before. -/
def CountedOnce (path : String) : Prop :=
  ∀ sampler settings as s a s', Run sampler settings as s → Concerns path s a →
    next sampler settings s a = some s' →
    ∀ key, s'.registry.requests.getD key 0 =
      s.registry.requests.getD key 0 + if countedUnder s a = some key then 1 else 0

/-- Infrastructure is not counted, everything else is. -/
def Classified (path : String) : Prop :=
  (Infrastructure path → LeftUncounted path) ∧ (¬ Infrastructure path → CountedOnce path)

theorem leftUncounted {path : String}
    (h : ∀ r : Request, r.urlPath = path → r.instrumented = false) : LeftUncounted path := by
  intro sampler settings as s a s' _ hconcerns hn
  have hout : Uninstrumented s a := by
    cases a with
    | enter request now traceId spanId => exact h request hconcerns
    | leave i outcome pathFormat now ts =>
      obtain ⟨t, ht, hpath⟩ := hconcerns
      exact ⟨t, ht, h t.request hpath⟩
  rw [registry_uninstrumented hout hn]

theorem countedOnce {path : String}
    (h : ∀ r : Request, r.urlPath = path → r.instrumented = true) : CountedOnce path := by
  intro sampler settings as s a s' _ hconcerns hn key
  cases a with
  | enter request now traceId spanId =>
    simp only [next, enter, h request hconcerns, if_true, Option.some.injEq] at hn
    subst hn
    rfl
  | leave i outcome pathFormat now ts =>
    obtain ⟨t, ht, hpath⟩ := hconcerns
    simp only [next, ht, h t.request hpath, if_true] at hn
    split at hn
    · cases hn
      refine (Registry.requests_observeRequest _ key).trans ?_
      simp only [countedUnder, ht, Option.map_some, Option.some.injEq, eq_comm]
    · cases hn

/-- A request that leaves and is not counted. -/
theorem not_countedOnce {path : String}
    (h : ∀ r : Request, r.urlPath = path → r.instrumented = false) : ¬ CountedOnce path := by
  intro hcounted
  have hout : Request.instrumented ⟨"GET", path⟩ = false := h _ rfl
  let entered : App := { App.init with tasks := [⟨⟨"GET", path⟩, 0, .invalid, .awaiting⟩] }
  let leaving : Action := .leave 0 (.response 404) none 0 ""
  have hrun : Run (fun _ _ => true) (demoSettings true) [.enter ⟨"GET", path⟩ 0 1 1] entered := by
    apply Steps.single trivial
    simp [next, enter, hout, entered, App.init]
  have hn : next (fun _ _ => true) (demoSettings true) entered leaving =
      some { entered with
        tasks := [⟨⟨"GET", path⟩, 0, .invalid, .finished (.response 404) "__unmatched__"⟩] } := by
    simp [next, hout, entered, leaving, routeTemplate]
  have hconcerns : Concerns path entered leaving := ⟨_, rfl, rfl⟩
  have hunder : countedUnder entered leaving = some ("GET", "__unmatched__", "404") := rfl
  have hone := hcounted _ _ _ _ _ _ hrun hconcerns hn ("GET", "__unmatched__", "404")
  rw [if_pos hunder] at hone
  exact absurd hone (Nat.ne_of_lt (Nat.lt_succ_self _))

/-- **Only infrastructure is left out of the SLI, for exactly the paths that do not straddle
    its boundary.** -/
theorem sli_exclusion_iff (path : String) : Classified path ↔ ¬ Straddles path := by
  constructor
  · intro h hstraddles
    apply not_countedOnce _ (h.2 hstraddles.not_infrastructure)
    intro r hr
    exact instrumented_eq_false_iff.mpr (Or.inr (hr ▸ hstraddles))
  · intro hnot
    refine ⟨?_, ?_⟩
    · intro hinf
      apply leftUncounted
      intro r hr
      exact instrumented_eq_false_iff.mpr (Or.inl (hr ▸ hinf))
    · intro hinf
      apply countedOnce
      intro r hr
      subst hr
      rw [← Bool.not_eq_false, instrumented_eq_false_iff]
      exact not_or.mpr ⟨hinf, hnot⟩

/-- Below none of the endpoints, and not counted. -/
theorem metricsfoo_is_not_counted : ¬ ∀ path, Classified path := by
  intro h
  have hstraddles : Straddles "/metricsfoo" :=
    ⟨"/metrics", by decide, 'f', ['o', 'o'], by decide, by decide⟩
  have hinf := hstraddles.not_infrastructure
  refine not_countedOnce ?_ ((h "/metricsfoo").2 hinf)
  intro r hr
  exact instrumented_eq_false_iff.mpr (Or.inr (hr ▸ hstraddles))

end SampleApp
end ObservabilityStack
