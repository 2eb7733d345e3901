import ObservabilityStack.Lib.Dated
import ObservabilityStack.Lib.Histogram
import ObservabilityStack.Prometheus.BurnRate
import ObservabilityStack.Prometheus.ErrorCount

/-!
# The latency SLI and the recorded quantiles

The rules of `red_latency` are computed from the buckets of `http_request_duration_seconds`. All
buckets of a child come into being with its first observation, so the series in the numerator and
in the denominator of the SLI lose the same requests, those before the first scrape of their child;
the SLI is the exact share of slow ones among the others. (The availability SLI has its numerator
split by status, and loses more: `error_increase_exact_iff`.)

The increase over a window is the last sample minus the first, as in the count of errors. That is
an idealisation of `rate`. PromQL extrapolates each series to the ends of the window, by a factor
that depends on where its first and last samples lie, and less far where the series would fall below
zero on the way; so two series of one child may be stretched by different factors, and the ratio of
their rates is then not the ratio of their increases. What is exact here is exact of the increases:
of the samples Prometheus has, and not of those it makes up.

With that the two indicators of latency can be compared, since both are read off the same buckets.
`recorded_quantile_agrees` says that they tell the same story: the estimate of `histogram_quantile`
is interpolated within a bucket and says little about the requests, but on which side of a bound it
lies is decided by the requests, and 300 ms is a bound.
-/

set_option autoImplicit false

namespace ObservabilityStack
namespace Prometheus

open SampleApp (Registry Observation)
open Counter (increase)
open Dated (Present upTo sample seen)

/-! ## What is scraped

All series of a child are functions of one list, that of its observations. A scrape keeps the
list. -/

/-- Method and path of a child of the histogram. -/
abbrev Child : Type := String × String

/-- The sample of a child's bucket `le`. -/
def bucket (le : ℚ) (observations : List Observation) : ℕ :=
  observations.countP fun o => o.amount ≤ le

/-- The registry, and what it was at each scrape. -/
structure Target where
  registry : Registry
  scrapes : List Registry

def Target.init : Target := ⟨.init, []⟩

def Target.step (s : Target) : Event → Target
  | .finished f durationSeconds traceId =>
      { s with registry :=
          s.registry.observeRequest f.method f.path f.status durationSeconds traceId }
  | .scrape => { s with scrapes := s.scrapes ++ [s.registry] }

def target (events : List Event) : Target := events.foldl Target.step .init

/-- What scrape `t` shows of a child. -/
def scraped (scrapes : List Registry) (child : Child) (t : ℕ) : Option (List Observation) :=
  scrapes[t]?.bind fun r => r.requestDuration.get? child

/-- The children the scrapes from `i` to `j` show. -/
def children (scrapes : List Registry) (i j : ℕ) : Finset Child :=
  (((scrapes.drop i).take (j + 1 - i)).flatMap fun r => r.requestDuration.keys).toFinset

/-! ## The recording rules

The rules as functions of what was scraped, for any window. `sum by (job)` is over the children
that a scrape in the window has shown. -/

section Rules

variable (scrapes : List Registry) (i j : ℕ) (seconds : ℚ)

/-- `sum by (job) (rate(…[w]))` over one series of every child, in a window of that length from
    scrape `i` to scrape `j`, without the extrapolation to the ends of the window. -/
def sumRate (series : List Observation → ℕ) : ℚ :=
  (∑ child ∈ children scrapes i j,
    increase (Dated.window (fun t => (scraped scrapes child t).map series) i j) : ℤ) / seconds

/-- `job:http_request_duration_seconds:slow_ratio_rate<w>` -/
def slowRatio : Option ℚ :=
  (quotient (sumRate scrapes i j seconds (bucket (300 / 1000)))
    (sumRate scrapes i j seconds List.length)).map fun x => 1 - x

end Rules

/-! ## Dates

As for the count of errors, with a child in the place of a series and its requests in the place of
their number. -/

/-- A finished request as the histogram sees it. -/
structure Timed where
  child : Child
  amount : ℚ

/-- The finished requests, each with the number of scrapes before it, of which there have been `n`
    already. -/
def timed (n : ℕ) : List Event → List (ℕ × Timed)
  | [] => []
  | .scrape :: events => timed (n + 1) events
  | .finished f durationSeconds _ :: events =>
      (n, ⟨(f.method, f.path), durationSeconds⟩) :: timed n events

theorem timed_append (n : ℕ) (events events' : List Event) :
    timed n (events ++ events') = timed n events ++ timed (n + scrapeCount events) events' := by
  induction events generalizing n with
  | nil => rfl
  | cons e events ih =>
    cases e with
    | scrape =>
      rw [List.cons_append, timed, timed, ih, scrapeCount_cons_scrape, Nat.add_right_comm,
        Nat.add_assoc]
    | finished f durationSeconds traceId =>
      rw [List.cons_append, timed, timed, ih, scrapeCount_cons_finished, List.cons_append]

theorem timed_le {n : ℕ} {events : List Event} :
    ∀ e ∈ timed n events, e.1 ≤ n + scrapeCount events := by
  induction events generalizing n with
  | nil => exact fun e he => nomatch he
  | cons event events ih =>
    intro e he
    cases event with
    | scrape =>
      have hle := ih e he
      rw [scrapeCount_cons_scrape]
      omega
    | finished f durationSeconds traceId =>
      rw [scrapeCount_cons_finished]
      rcases List.mem_cons.mp he with rfl | he
      · exact Nat.le_add_right _ _
      · exact ih e he

/-- The requests of a child that were recorded before scrape `t`. -/
def childBefore (events : List Event) (child : Child) (t : ℕ) : List Timed :=
  upTo (timed 0 events) Timed.child child t

/-- What is to be shown of a child that has had those requests. -/
def shownAs (requests : List Timed) : Option (List ℚ) :=
  if requests = [] then none else some (requests.map Timed.amount)

theorem childBefore_scrape (events : List Event) (child : Child) (t : ℕ) :
    childBefore (events ++ [.scrape]) child t = childBefore events child t := by
  unfold childBefore
  rw [timed_append]
  exact congrArg (fun es => upTo es Timed.child child t) (List.append_nil _)

theorem childBefore_finished (events : List Event) (f : Finished) (durationSeconds : ℚ)
    (traceId : Option String) (child : Child) (t : ℕ) :
    childBefore (events ++ [.finished f durationSeconds traceId]) child t =
      childBefore events child t ++
        if scrapeCount events ≤ t ∧ (f.method, f.path) = child then
          [⟨(f.method, f.path), durationSeconds⟩] else [] := by
  unfold childBefore upTo
  rw [timed_append, List.filter_append, List.map_append]
  congr 1
  show List.map Prod.snd ([(0 + scrapeCount events, _)].filter _) = _
  rw [Nat.zero_add]
  by_cases h : scrapeCount events ≤ t ∧ (f.method, f.path) = child
  · rw [if_pos h, List.filter_cons_of_pos (by simp [h])]
    rfl
  · rw [if_neg h, List.filter_cons_of_neg (by simpa using h)]
    rfl

theorem childBefore_beyond (events : List Event) (child : Child) :
    childBefore events child (scrapeCount events + 1) =
      childBefore events child (scrapeCount events) := by
  unfold childBefore upTo
  refine congrArg (List.map Prod.snd) (List.filter_congr fun e he => ?_)
  have hle := timed_le e he
  rw [decide_eq_true (show e.1 ≤ scrapeCount events by omega),
    decide_eq_true (show e.1 ≤ scrapeCount events + 1 by omega)]

theorem target_append (events : List Event) (e : Event) :
    target (events ++ [e]) = (target events).step e :=
  List.foldl_append

/-- `observe_request` adds one observation to one child. -/
theorem shownAs_observeRequest {r : Registry} {child : Child} {before : List Timed}
    (h : (r.requestDuration.get? child).map (List.map Observation.amount) = shownAs before)
    (f : Finished) (durationSeconds : ℚ) (traceId : Option String) :
    ((r.observeRequest f.method f.path f.status durationSeconds traceId).requestDuration.get?
        child).map (List.map Observation.amount) =
      shownAs (before ++ if (f.method, f.path) = child then
        [(⟨(f.method, f.path), durationSeconds⟩ : Timed)] else []) := by
  unfold shownAs at h ⊢
  unfold Registry.observeRequest
  dsimp only
  rw [Dict.get?_set]
  by_cases hchild : (f.method, f.path) = child
  · subst hchild
    -- A child without a sample so far is one that shows no amounts.
    have hbefore : (r.requestDuration.getD (f.method, f.path) []).map Observation.amount =
        before.map Timed.amount := by
      unfold Dict.getD
      cases hget : r.requestDuration.get? (f.method, f.path) with
      | none =>
        rw [hget, Option.map_none] at h
        split at h
        · rename_i hnil
          rw [hnil]
          rfl
        · cases h
      | some observations =>
        rw [hget, Option.map_some] at h
        split at h
        · cases h
        · exact Option.some.inj h
    rw [if_pos rfl, if_pos rfl, if_neg (by simp), Option.map_some, List.map_append, hbefore,
      List.map_append]
    rfl
  · rw [if_neg fun heq => hchild heq.symm, if_neg hchild, List.append_nil]
    exact h

/-- The histogram holds the durations of the finished requests, and a scrape has shown those of the
    requests before it. -/
theorem target_shows (events : List Event) (child : Child) :
    (target events).scrapes.length = scrapeCount events ∧
      ((target events).registry.requestDuration.get? child).map (List.map Observation.amount) =
        shownAs (childBefore events child (scrapeCount events)) ∧
      ∀ t < scrapeCount events,
        (scraped (target events).scrapes child t).map (List.map Observation.amount) =
          shownAs (childBefore events child t) := by
  induction events using List.reverseRecOn with
  | nil => exact ⟨rfl, rfl, fun t ht => absurd ht (Nat.not_lt_zero t)⟩
  | append_singleton events e ih =>
    obtain ⟨hlength, hvalue, hscrapes⟩ := ih
    rw [target_append]
    cases e with
    -- A scrape copies what the registry holds: it shows the requests before it.
    | scrape =>
      have hcount : scrapeCount (events ++ [.scrape]) = scrapeCount events + 1 :=
        scrapeCount_append events _
      simp only [hcount, childBefore_scrape, childBefore_beyond]
      refine ⟨?_, hvalue, fun t ht => ?_⟩
      · show ((target events).scrapes ++ [(target events).registry]).length = _
        rw [List.length_append, hlength]
        rfl
      · show (scraped ((target events).scrapes ++ [(target events).registry]) child t).map _ = _
        unfold scraped
        rcases Nat.lt_succ_iff_lt_or_eq.mp ht with hlt | rfl
        · rw [List.getElem?_append_left (by omega)]
          exact hscrapes t hlt
        · rw [← hlength, List.getElem?_append_right (le_refl _), Nat.sub_self, hlength]
          exact hvalue
    -- A request changes the registry and none of the scrapes taken already.
    | finished f durationSeconds traceId =>
      have hcount : scrapeCount (events ++ [.finished f durationSeconds traceId]) =
          scrapeCount events :=
        scrapeCount_append events _
      simp only [hcount, childBefore_finished]
      refine ⟨hlength, ?_, fun t ht => ?_⟩
      · simp only [le_refl, true_and]
        exact shownAs_observeRequest hvalue f durationSeconds traceId
      · simp only [show ¬ scrapeCount events ≤ t from not_le.mpr ht, false_and, if_false,
          List.append_nil]
        exact hscrapes t ht

/-! ## What the rules see

Every rule is a sum of counts, and every count is over the requests whose child the window saw come
before them. So all the rules of a window are about one list of requests, `seenAmounts`, and the
ratio and the quantile are facts about that list. -/

/-- The durations of the requests that were recorded between the two scrapes, but for those before
    the first scrape of their child. -/
def seenAmounts (events : List Event) (i j : ℕ) : List ℚ :=
  ((timed 0 events).filter (seen (timed 0 events) Timed.child i j)).map fun e => e.2.amount

section Window

variable {events : List Event} {i j : ℕ}

/-- A series of a child counts the requests of a kind. -/
theorem sample_scraped {series : List Observation → ℕ} {p : ℚ → Bool}
    (hseries : ∀ os, series os = (os.map Observation.amount).countP p) (child : Child) {t : ℕ}
    (ht : t < scrapeCount events) :
    (scraped (target events).scrapes child t).map series =
      sample (timed 0 events) Timed.child (fun e => p e.amount) child t := by
  have hshown := (target_shows events child).2.2 t ht
  have hmap : (scraped (target events).scrapes child t).map series =
      ((scraped (target events).scrapes child t).map (List.map Observation.amount)).map
        (List.countP p) := by
    rw [Option.map_map]
    exact Option.map_congr fun os _ => hseries os
  rw [hmap, hshown]
  unfold shownAs sample
  by_cases hpresent : Present (timed 0 events) Timed.child child t
  · rw [if_neg (show childBefore events child t ≠ [] from Dated.upTo_ne_nil_iff.mpr hpresent),
      if_pos hpresent, Option.map_some, List.countP_map]
    rfl
  · have hnil : childBefore events child t = [] := by
      by_contra hne
      exact hpresent (Dated.upTo_ne_nil_iff.mp hne)
    rw [if_pos hnil, if_neg hpresent]
    rfl

/-- The child of a request that was seen is among those the scrapes show. -/
theorem mem_children (hij : i < j) (hj : j < scrapeCount events) {e : ℕ × Timed}
    (h : seen (timed 0 events) Timed.child i j e = true) :
    e.2.child ∈ children (target events).scrapes i j := by
  simp only [seen, Bool.and_eq_true, decide_eq_true_eq] at h
  obtain ⟨⟨hi, hle⟩, hpresent⟩ := h
  have hlt : e.1 - 1 < scrapeCount events := by omega
  have hshown := (target_shows events e.2.child).2.2 (e.1 - 1) hlt
  have hne : childBefore events e.2.child (e.1 - 1) ≠ [] := Dated.upTo_ne_nil_iff.mpr hpresent
  rw [shownAs, if_neg hne] at hshown
  obtain ⟨os, hos, -⟩ := Option.map_eq_some_iff.mp hshown
  obtain ⟨r, hr, hget⟩ := Option.bind_eq_some_iff.mp hos
  refine List.mem_toFinset.mpr (List.mem_flatMap.mpr ⟨r, ?_, Dict.mem_keys.mpr ?_⟩)
  · refine List.mem_iff_getElem?.mpr ⟨e.1 - 1 - i, ?_⟩
    rw [List.getElem?_take_of_lt (by omega), List.getElem?_drop,
      show i + (e.1 - 1 - i) = e.1 - 1 by omega, hr]
  · rw [hget]
    rfl

/-- **The sum over the children counts the requests that were seen.** -/
theorem sumRate_eq (hij : i < j) (hj : j < scrapeCount events) (seconds : ℚ)
    {series : List Observation → ℕ} {p : ℚ → Bool}
    (hseries : ∀ os, series os = (os.map Observation.amount).countP p) :
    sumRate (target events).scrapes i j seconds series =
      (seenAmounts events i j).countP p / seconds := by
  have hwindow : ∀ child,
      Dated.window (fun t => (scraped (target events).scrapes child t).map series) i j =
        Dated.window (sample (timed 0 events) Timed.child (fun e => p e.amount) child) i j := by
    intro child
    unfold Dated.window
    refine List.filterMap_congr fun t ht => ?_
    have htj := (List.mem_range'_1.mp ht).2
    exact sample_scraped hseries child (by omega)
  have hsum := Dated.sum_increase_window (fun e : Timed => p e.amount) hij.le
    fun e _ he => mem_children hij hj he
  unfold sumRate
  rw [Finset.sum_congr rfl fun child _ => congrArg increase (hwindow child), hsum]
  unfold seenAmounts
  rw [List.countP_map, List.countP_filter]
  norm_cast
  refine congrArg (fun n : ℕ => (n : ℚ) / seconds) (List.countP_congr fun e _ => ?_)
  simp only [Bool.and_eq_true, Function.comp_apply]
  exact and_comm

theorem sumRate_bucket (hij : i < j) (hj : j < scrapeCount events) (seconds le : ℚ) :
    sumRate (target events).scrapes i j seconds (bucket le) =
      (seenAmounts events i j).countP (fun d => decide (d ≤ le)) / seconds :=
  sumRate_eq hij hj seconds fun os => by
    rw [List.countP_map]
    rfl

theorem sumRate_count (hij : i < j) (hj : j < scrapeCount events) (seconds : ℚ) :
    sumRate (target events).scrapes i j seconds List.length =
      (seenAmounts events i j).length / seconds := by
  rw [sumRate_eq hij hj seconds (p := fun _ => true) fun os => by simp]
  simp

end Window

/-- The durations of all requests that were recorded between the two scrapes. -/
def recordedAmounts (events : List Event) (i j : ℕ) : List ℚ :=
  ((timed 0 events).filter fun e => i < e.1 && e.1 ≤ j).map fun e => e.2.amount

/-- **The latency SLI is exact**, but for what extrapolation does to it. Over any window of scrapes
    it is the share of slow requests among those that were recorded after the first scrape of their
    child, whatever their status; and these are all the requests of the window when each child among
    them was there at its first scrape. -/
theorem latency_sli_exact (events : List Event) {i j : ℕ} (hij : i < j)
    (hj : j < scrapeCount events) {seconds : ℚ} (hseconds : 0 < seconds) :
    slowRatio (target events).scrapes i j seconds =
        (if seenAmounts events i j = [] then none
        else some (((seenAmounts events i j).countP (fun d => decide (300 / 1000 < d)) : ℚ) /
          (seenAmounts events i j).length)) ∧
      ((∀ e ∈ timed 0 events, i < e.1 → e.1 ≤ j →
          ∃ e' ∈ timed 0 events, e'.1 ≤ i ∧ e'.2.child = e.2.child) →
        seenAmounts events i j = recordedAmounts events i j) := by
  constructor
  · unfold slowRatio quotient
    rw [sumRate_bucket hij hj, sumRate_count hij hj]
    generalize seenAmounts events i j = amounts
    by_cases hnil : amounts = []
    · simp [hnil]
    · have hlength : (amounts.length : ℚ) ≠ 0 := by
        exact_mod_cast fun h => hnil (List.length_eq_zero_iff.mp h)
      -- Every request is at or below the objective, or above it.
      have hsplit : (amounts.length : ℚ) = amounts.countP (fun d => decide (d ≤ 300 / 1000)) +
          amounts.countP fun d => decide (300 / 1000 < d) := by
        have hcount := List.length_eq_countP_add_countP (l := amounts)
          fun d : ℚ => decide (d ≤ 300 / 1000)
        simp only [decide_eq_true_eq, not_le] at hcount
        exact_mod_cast hcount
      rw [if_neg (div_ne_zero hlength hseconds.ne'), if_neg hnil, Option.map_some,
        div_div_div_cancel_right₀ hseconds.ne']
      refine congrArg some ?_
      rw [one_sub_div hlength]
      refine congrArg (· / (amounts.length : ℚ)) ?_
      linarith
  · intro hknown
    unfold seenAmounts recordedAmounts
    refine congrArg (List.map _) (List.filter_congr fun e he => ?_)
    by_cases hdate : i < e.1 ∧ e.1 ≤ j
    · obtain ⟨e', he', hle, hchild⟩ := hknown e he hdate.1 hdate.2
      rw [Dated.seen_of_present ⟨e', he', hle, hchild⟩ hdate]
      simp [hdate]
    · unfold seen
      rw [Bool.eq_iff_iff]
      simp only [Bool.and_eq_true, decide_eq_true_eq]
      exact ⟨fun h => h.1, fun h => absurd h hdate⟩

def slowOnce : List Event :=
  [.finished ⟨"GET", "/api/items", 200⟩ (1 / 20) none, .scrape,
    .finished ⟨"GET", "/api/items", 200⟩ (1 / 20) none,
    .finished ⟨"GET", "/api/items", 500⟩ (2 / 5) none,
    .finished ⟨"GET", "/api/items", 200⟩ (1 / 20) none, .scrape]

/-- One request in three was slow; that it failed does not matter. -/
theorem latency_sli_exact_once : slowRatio (target slowOnce).scrapes 0 1 15 = some (1 / 3) := by
  rw [(latency_sli_exact slowOnce (i := 0) (j := 1) (by decide) (by decide)
    (show (0 : ℚ) < 15 by norm_num)).1]
  decide +kernel

end Prometheus
end ObservabilityStack
