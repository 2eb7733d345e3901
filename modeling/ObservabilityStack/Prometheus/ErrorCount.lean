import Mathlib.Algebra.BigOperators.Ring.Finset
import Mathlib.Tactic.IntervalCases
import ObservabilityStack.Lib.Counter
import ObservabilityStack.SampleApp.Metrics

/-!
# The error count behind the availability SLI

`sum(rate(http_requests_total{status=~"5.."}[w]))` is computed from scrapes: for each series the
last value in the window minus the first, summed over the series whose status label matches.
The series come from `observe_request`, which creates one when a combination of method, path and
status is seen for the first time, with the value 1. The 0 it counted up from is never scraped.

A lifetime of the process is a list of events, finished requests and scrapes. `stamps` dates
each finished request by the number of scrapes before it; the value a scrape shows, and the
requests recorded between two scrapes, are both counts over those dates.

The count is exact for a series that the first scrape of the window already shows, and one short,
or more, for a series that comes into being inside the window. The number of a series' requests
before its first scrape is what is lost, and they are lost for ever: no later window has them. So
the condition of the result is on the events, and asks of each error whether its series existed.

The extrapolation that PromQL adds is left out here, as the statement says, and so is the reset of
a counter: the events are those of one lifetime.
-/

set_option autoImplicit false

namespace ObservabilityStack
namespace Prometheus

open SampleApp (Registry)
open Counter (increase shown)

/-- Method, path and status label of a series. -/
abbrev Series : Type := String × String × String

/-- A request that was recorded, with the labels it is counted under. -/
structure Finished where
  method : String
  path : String
  status : ℤ
  deriving DecidableEq, Repr

def Finished.series (f : Finished) : Series := (f.method, f.path, toString f.status)

def Finished.isError (f : Finished) : Bool := decide (500 ≤ f.status ∧ f.status ≤ 599)

/-- A request is recorded, or the target is scraped. -/
inductive Event
  | finished (f : Finished) (durationSeconds : ℚ) (traceId : Option String)
  | scrape
  deriving DecidableEq

/-- The registry, and what each scrape of it has shown. -/
structure Process where
  registry : Registry
  scrapes : List (Dict Series ℕ)

def Process.init : Process := ⟨.init, []⟩

/-- A scrape copies the counters as they are. -/
def Process.step (s : Process) : Event → Process
  | .finished f durationSeconds traceId =>
      { s with registry :=
          s.registry.observeRequest f.method f.path f.status durationSeconds traceId }
  | .scrape => { s with scrapes := s.scrapes ++ [s.registry.requests] }

/-- The target after these events, from its start. -/
def run (events : List Event) : Process := events.foldl Process.step .init

/-- `status=~"5.."`: the expression is anchored at both ends. -/
def matches5xx (status : String) : Bool :=
  match status.toList with
  | ['5', _, _] => true
  | _ => false

/-- The sum over the matching series of their increase from scrape `i` to scrape `j`. -/
def errorIncrease (scrapes : List (Dict Series ℕ)) (i j : ℕ) : ℤ :=
  let window := (scrapes.drop i).take (j - i + 1)
  let series := (window.flatMap Dict.keys).toFinset.filter fun key => matches5xx key.2.2
  ∑ key ∈ series, increase (window.filterMap fun scrape => scrape.get? key)

/-! ## Dates

The date of a request is the first scrape that shows it. Every count of the module is a count over
dates, so that a window, which is two scrapes, is an interval of them. -/

/-- The finished requests, each with the number of scrapes before it, of which there have been
    `n` already. -/
def stamps (n : ℕ) : List Event → List (ℕ × Finished)
  | [] => []
  | .scrape :: events => stamps (n + 1) events
  | .finished f _ _ :: events => (n, f) :: stamps n events

def scrapeCount (events : List Event) : ℕ := events.countP fun e => e = .scrape

/-- The requests recorded after scrape `i` and before scrape `j`. -/
def recordedBetween (events : List Event) (i j : ℕ) : List Finished :=
  ((stamps 0 events).filter fun stamp => i < stamp.1 ∧ stamp.1 ≤ j).map Prod.snd

/-- Those recorded before scrape `i`. -/
def recordedBefore (events : List Event) (i : ℕ) : List Finished :=
  ((stamps 0 events).filter fun stamp => stamp.1 ≤ i).map Prod.snd

/-- How many requests of a series were recorded before scrape `k`. -/
def countBefore (events : List Event) (key : Series) (k : ℕ) : ℕ :=
  (stamps 0 events).countP fun stamp => stamp.1 ≤ k && stamp.2.series = key

section ScrapeCount

variable (events : List Event) (f : Finished) (durationSeconds : ℚ) (traceId : Option String)

@[simp] theorem scrapeCount_cons_scrape :
    scrapeCount (.scrape :: events) = scrapeCount events + 1 :=
  List.countP_cons_of_pos rfl

@[simp] theorem scrapeCount_cons_finished :
    scrapeCount (.finished f durationSeconds traceId :: events) = scrapeCount events :=
  List.countP_cons_of_neg (by simp)

@[simp] theorem scrapeCount_append (events' : List Event) :
    scrapeCount (events ++ events') = scrapeCount events + scrapeCount events' :=
  List.countP_append

end ScrapeCount

theorem stamps_append (n : ℕ) (events events' : List Event) :
    stamps n (events ++ events') = stamps n events ++ stamps (n + scrapeCount events) events' := by
  induction events generalizing n with
  | nil => rfl
  | cons e events ih =>
    cases e with
    | scrape =>
      rw [List.cons_append, stamps, stamps, ih, scrapeCount_cons_scrape, Nat.add_right_comm,
        Nat.add_assoc]
    | finished f durationSeconds traceId =>
      rw [List.cons_append, stamps, stamps, ih, scrapeCount_cons_finished, List.cons_append]

theorem stamp_le {n : ℕ} {events : List Event} :
    ∀ stamp ∈ stamps n events, stamp.1 ≤ n + scrapeCount events := by
  induction events generalizing n with
  | nil => intro stamp h; cases h
  | cons e events ih =>
    intro stamp h
    cases e with
    | scrape =>
      have hle := ih stamp h
      rw [scrapeCount_cons_scrape]
      omega
    | finished f durationSeconds traceId =>
      rw [scrapeCount_cons_finished]
      rcases List.mem_cons.mp h with rfl | h
      · exact Nat.le_add_right _ _
      · exact ih stamp h

theorem countBefore_mono (events : List Event) (key : Series) :
    Monotone (countBefore events key) := by
  intro k k' hk
  refine List.countP_mono_left ?_
  intro stamp _ h
  obtain ⟨hle, hkey⟩ := (Bool.and_eq_true _ _).mp h
  exact (Bool.and_eq_true _ _).mpr
    ⟨decide_eq_true ((of_decide_eq_true hle).trans hk), hkey⟩

theorem countBefore_mono_from (events : List Event) (key : Series) (i : ℕ) :
    Monotone fun k => countBefore events key (i + k) := by
  intro k k' hk
  exact countBefore_mono events key (Nat.add_le_add_left hk i)

/-- A scrape adds no request. -/
theorem countBefore_scrape (events : List Event) (key : Series) (k : ℕ) :
    countBefore (events ++ [.scrape]) key k = countBefore events key k := by
  unfold countBefore
  rw [stamps_append]
  exact congrArg (List.countP _) (List.append_nil _)

/-- A request counts from the next scrape on. -/
theorem countBefore_finished (events : List Event) (f : Finished) (durationSeconds : ℚ)
    (traceId : Option String) (key : Series) (k : ℕ) :
    countBefore (events ++ [.finished f durationSeconds traceId]) key k =
      countBefore events key k + if scrapeCount events ≤ k ∧ f.series = key then 1 else 0 := by
  unfold countBefore
  rw [stamps_append, List.countP_append]
  congr 1
  show List.countP _ [(0 + scrapeCount events, f)] = _
  rw [List.countP_singleton, Nat.zero_add]
  refine if_congr ?_ rfl rfl
  rw [Bool.and_eq_true, decide_eq_true_iff, decide_eq_true_iff]

/-! ## What the scrapes show

The registry is run forwards, and each scrape is what the registry was then. By induction on the
events from the end: a scrape adds a copy, a request adds one to one series of the present. -/

/-- No request is dated later than the scrapes there have been. -/
theorem countBefore_beyond (events : List Event) (key : Series) :
    countBefore events key (scrapeCount events + 1) =
      countBefore events key (scrapeCount events) := by
  refine List.countP_congr ?_
  intro stamp hstamp
  have hle := stamp_le stamp hstamp
  simp only [Bool.and_eq_true, decide_eq_true_iff]
  exact and_congr_left fun _ => iff_of_true (by omega) (by omega)

theorem run_append (events : List Event) (e : Event) : run (events ++ [e]) = (run events).step e :=
  List.foldl_append

/-- `labels(...)` finds the child or makes one at 0, and `inc()` follows at once. -/
theorem shown_observeRequest {r : Registry} {key : Series} {n : ℕ}
    (h : r.requests.get? key = shown n) (f : Finished) (durationSeconds : ℚ)
    (traceId : Option String) :
    (r.observeRequest f.method f.path f.status durationSeconds traceId).requests.get? key =
      shown (n + if f.series = key then 1 else 0) := by
  unfold Registry.observeRequest
  dsimp only
  rw [Dict.get?_set]
  by_cases hkey : f.series = key
  · subst hkey
    have hchild : r.requests.getD f.series 0 = n := by
      unfold Dict.getD
      rw [h, Counter.getD_shown]
    rw [if_pos (show f.series = (f.method, f.path, toString f.status) from rfl), if_pos rfl,
      Counter.shown_succ]
    exact congrArg (fun n => some (n + 1)) hchild
  · rw [if_neg (show ¬ key = (f.method, f.path, toString f.status) from fun h => hkey h.symm),
      if_neg hkey, Nat.add_zero]
    exact h

/-- The counter of a series is the number of its requests, and scrape `k` has shown the number
    of those before it. -/
theorem run_shows (events : List Event) (key : Series) :
    (run events).registry.requests.get? key =
        shown (countBefore events key (scrapeCount events)) ∧
      (run events).scrapes.map (fun scrape => scrape.get? key) =
        (List.range (scrapeCount events)).map fun k => shown (countBefore events key k) := by
  induction events using List.reverseRecOn with
  | nil => exact ⟨rfl, rfl⟩
  | append_singleton events e ih =>
    -- A scrape adds a column and leaves the present alone, a request does the opposite.
    obtain ⟨hvalue, hscrapes⟩ := ih
    rw [run_append]
    cases e with
    | scrape =>
      have hcount : scrapeCount (events ++ [.scrape]) = scrapeCount events + 1 :=
        scrapeCount_append events _
      simp only [hcount, countBefore_scrape]
      refine ⟨?_, ?_⟩
      · rw [countBefore_beyond]
        exact hvalue
      · show ((run events).scrapes ++ [(run events).registry.requests]).map _ = _
        rw [List.map_append, hscrapes, List.range_succ, List.map_append]
        exact congrArg (_ ++ [·]) hvalue
    | finished f durationSeconds traceId =>
      have hcount : scrapeCount (events ++ [.finished f durationSeconds traceId]) =
          scrapeCount events :=
        scrapeCount_append events _
      rw [hcount]
      refine ⟨?_, ?_⟩
      · rw [countBefore_finished]
        simp only [le_refl, true_and]
        exact shown_observeRequest hvalue f durationSeconds traceId
      · show (run events).scrapes.map _ = _
        rw [hscrapes]
        refine List.map_congr_left ?_
        intro k hk
        have hlt := List.mem_range.mp hk
        rw [countBefore_finished, if_neg fun h => absurd h.1 (Nat.not_le.mpr hlt), Nat.add_zero]

/-- The samples of a series in the window from scrape `i` to scrape `j`. -/
theorem window_samples (events : List Event) (key : Series) {i j : ℕ} (hij : i < j)
    (hj : j < scrapeCount events) :
    (((run events).scrapes.drop i).take (j - i + 1)).filterMap (fun scrape => scrape.get? key) =
      Counter.samples (fun k => countBefore events key (i + k)) (j - i) := by
  have hshows := (run_shows events key).2
  have hwindow :
      (((run events).scrapes.drop i).take (j - i + 1)).map (fun scrape => scrape.get? key) =
        (List.range (j - i + 1)).map fun k => Counter.shown (countBefore events key (i + k)) := by
    rw [List.map_take, List.map_drop, hshows, ← List.map_drop, ← List.map_take,
      List.range_eq_range', List.drop_range', List.take_range'_of_length_ge (by omega),
      Nat.zero_add, Nat.mul_one, List.range'_eq_map_range, List.map_map]
    rfl
  have hid := congrArg (List.filterMap id) hwindow
  rw [List.filterMap_map, List.filterMap_map] at hid
  exact hid

/-! ## The status label

The label is the decimal text of an integer, and the expression asks for a five and two
characters. -/

theorem matches5xx_iff {status : String} :
    matches5xx status = true ↔ ∃ c c', status.toList = ['5', c, c'] := by
  unfold matches5xx
  constructor
  · intro h
    split at h
    · rename_i c c' hlist
      exact ⟨c, c', hlist⟩
    · cases h
  · intro ⟨c, c', hlist⟩
    rw [hlist]
    rfl

theorem digitChar_eq_five {d : ℕ} (h : d < 10) (hd : d.digitChar = '5') : d = 5 := by
  interval_cases d <;> first | rfl | exact absurd hd (by decide)

theorem matches5xx_repr {n : ℕ} : matches5xx (Nat.repr n) = true ↔ 500 ≤ n ∧ n ≤ 599 := by
  rw [matches5xx_iff, Nat.toList_repr]
  constructor
  · intro ⟨c, c', hdigits⟩
    have hlength : (Nat.toDigits 10 n).length = 3 := by
      rw [hdigits]
      rfl
    -- Three digits, so the first of them is `n / 100`.
    have hupper : n < 10 ^ 3 := (Nat.length_toDigits_le_iff (by omega) (by omega)).mp hlength.le
    have hlower : ¬ n < 10 ^ 2 := by
      rw [← Nat.length_toDigits_le_iff (by omega) (by omega)]
      omega
    rw [Nat.toDigits_of_base_le (by omega) (show 10 ≤ n by omega),
      Nat.toDigits_of_base_le (by omega) (show 10 ≤ n / 10 by omega),
      Nat.toDigits_of_lt_base (show n / 10 / 10 < 10 by omega)] at hdigits
    have hfive := digitChar_eq_five (by omega) (List.cons.inj hdigits).1
    omega
  · intro ⟨hlower, hupper⟩
    rw [Nat.toDigits_of_base_le (by omega) (show 10 ≤ n by omega),
      Nat.toDigits_of_base_le (by omega) (show 10 ≤ n / 10 by omega),
      Nat.toDigits_of_lt_base (show n / 10 / 10 < 10 by omega),
      show n / 10 / 10 = 5 by omega]
    exact ⟨_, _, rfl⟩

/-- The pattern selects the statuses from 500 to 599 and no other integer. -/
theorem matches5xx_toString {status : ℤ} :
    matches5xx (toString status) = true ↔ 500 ≤ status ∧ status ≤ 599 := by
  cases status with
  | ofNat n =>
    refine matches5xx_repr.trans ?_
    rw [Int.ofNat_eq_natCast]
    omega
  | negSucc n =>
    refine iff_of_false ?_ (by omega)
    rw [matches5xx_iff]
    intro ⟨c, c', hlist⟩
    have hsign : (toString (Int.negSucc n)).toList = '-' :: (Nat.repr (n + 1)).toList := by
      show ("-" ++ Nat.repr (n + 1)).toList = _
      simp
    rw [hsign] at hlist
    cases hlist

/-! ## The increase of a window

Series by series, and then the sum over the series that the expression selects. In a series that
was there, the increase counts the requests in between; in one that was not, it leaves at least one
out. -/

/-- The requests of a series up to scrape `j` are those up to scrape `i` and those between. -/
theorem countBefore_split (events : List Event) (key : Series) {i j : ℕ} (hij : i ≤ j) :
    countBefore events key j = countBefore events key i +
      (recordedBetween events i j).countP fun f => true && f.series = key := by
  unfold countBefore recordedBetween
  rw [List.countP_map, List.countP_filter]
  -- A date up to `j` is up to `i` or after it, never both.
  induction stamps 0 events with
  | nil => rfl
  | cons stamp rest ih =>
    rw [List.countP_cons, List.countP_cons, List.countP_cons, ih]
    have hone : (if (decide (stamp.1 ≤ j) && decide (stamp.2.series = key)) = true then 1 else 0) =
        (if (decide (stamp.1 ≤ i) && decide (stamp.2.series = key)) = true then 1 else 0) +
          if ((fun f : Finished => true && decide (f.series = key)) ∘ Prod.snd) stamp &&
            decide (i < stamp.1 ∧ stamp.1 ≤ j) then 1 else 0 := by
      by_cases hkey : stamp.2.series = key
      · by_cases hi : stamp.1 ≤ i
        · simp [hkey, hi, hi.trans hij, Nat.not_lt.mpr hi]
        · simp [hkey, hi, Nat.lt_of_not_le hi]
      · simp [hkey]
    omega

theorem countBefore_pos {events : List Event} {f : Finished} {i j : ℕ} (hij : i ≤ j)
    (hf : f ∈ recordedBetween events i j) : 0 < countBefore events f.series j := by
  have hpos : 0 < (recordedBetween events i j).countP fun g => true && g.series = f.series := by
    refine List.countP_pos_iff.mpr ⟨f, hf, ?_⟩
    simp
  rw [countBefore_split events f.series hij]
  exact Nat.add_pos_right _ hpos

/-- A series that came up between the two scrapes has a request there. -/
theorem exists_recordedBetween {events : List Event} {key : Series} {i j : ℕ} (hij : i ≤ j)
    (hi : countBefore events key i = 0) (hj : 0 < countBefore events key j) :
    ∃ f ∈ recordedBetween events i j, f.series = key := by
  rw [countBefore_split events key hij, hi, Nat.zero_add, List.countP_pos_iff] at hj
  obtain ⟨f, hf, hkey⟩ := hj
  exact ⟨f, hf, of_decide_eq_true hkey⟩

theorem recordedBefore_pos {events : List Event} {key : Series} {i : ℕ} :
    0 < countBefore events key i ↔ ∃ f ∈ recordedBefore events i, f.series = key := by
  unfold countBefore recordedBefore
  rw [List.countP_pos_iff]
  constructor
  · intro ⟨stamp, hmem, h⟩
    obtain ⟨hle, hkey⟩ := (Bool.and_eq_true _ _).mp h
    exact ⟨stamp.2, List.mem_map_of_mem (List.mem_filter.mpr ⟨hmem, hle⟩), of_decide_eq_true hkey⟩
  · intro ⟨f, hmem, hkey⟩
    obtain ⟨stamp, hstamp, rfl⟩ := List.mem_map.mp hmem
    obtain ⟨hmem, hle⟩ := List.mem_filter.mp hstamp
    exact ⟨stamp, hmem, (Bool.and_eq_true _ _).mpr ⟨hle, decide_eq_true hkey⟩⟩

section Window

variable {events : List Event} {i j : ℕ}

/-- The series of a window are those recorded before its last scrape. -/
theorem mem_window_iff (hij : i < j) (hj : j < scrapeCount events) {key : Series} :
    key ∈ (((run events).scrapes.drop i).take (j - i + 1)).flatMap Dict.keys ↔
      0 < countBefore events key j := by
  have hsamples := window_samples events key hij hj
  have hmono := countBefore_mono_from events key i
  have hlast : i + (j - i) = j := by omega
  constructor
  · intro hmem
    by_contra hzero
    rw [Counter.samples_eq_nil hmono (by rw [hlast]; omega), List.filterMap_eq_nil_iff] at hsamples
    obtain ⟨scrape, hscrape, hkey⟩ := List.mem_flatMap.mp hmem
    have hsome := Dict.mem_keys.mp hkey
    rw [hsamples scrape hscrape] at hsome
    cases hsome
  · intro hpos
    have hshown := Counter.getLast?_samples (c := fun k => countBefore events key (i + k)) (j - i)
      (by rw [hlast]; exact hpos)
    rw [← hsamples] at hshown
    obtain ⟨scrape, hscrape, hget⟩ := List.mem_filterMap.mp (List.mem_of_getLast? hshown)
    refine List.mem_flatMap.mpr ⟨scrape, hscrape, Dict.mem_keys.mpr ?_⟩
    rw [hget]
    rfl

/-- The series the expression sums over. -/
def errorSeries (events : List Event) (i j : ℕ) : Finset Series :=
  ((((run events).scrapes.drop i).take (j - i + 1)).flatMap Dict.keys).toFinset.filter
    fun key => matches5xx key.2.2

theorem mem_errorSeries (hij : i < j) (hj : j < scrapeCount events) {key : Series} :
    key ∈ errorSeries events i j ↔ 0 < countBefore events key j ∧ matches5xx key.2.2 = true := by
  unfold errorSeries
  rw [Finset.mem_filter, List.mem_toFinset, mem_window_iff hij hj]

theorem matches5xx_series (f : Finished) : matches5xx f.series.2.2 = f.isError := by
  rw [Bool.eq_iff_iff]
  exact matches5xx_toString.trans decide_eq_true_iff.symm

/-- Every error between the two scrapes is in one of the series, and nothing else is. -/
theorem sum_recordedBetween (hij : i < j) (hj : j < scrapeCount events) :
    ∑ key ∈ errorSeries events i j, ((countBefore events key j : ℤ) - countBefore events key i) =
      (recordedBetween events i j).countP Finished.isError := by
  have hterm : ∀ key, ((countBefore events key j : ℤ) - countBefore events key i) =
      ((recordedBetween events i j).countP fun f => true && f.series = key : ℕ) := by
    intro key
    rw [countBefore_split events key hij.le]
    push_cast
    exact add_sub_cancel_left _ _
  calc ∑ key ∈ errorSeries events i j, ((countBefore events key j : ℤ) - countBefore events key i)
      = ((∑ key ∈ errorSeries events i j,
          (recordedBetween events i j).countP fun f => true && f.series = key : ℕ) : ℤ) := by
        rw [Nat.cast_sum]
        exact Finset.sum_congr rfl fun key _ => hterm key
    _ = ((recordedBetween events i j).countP fun f =>
          true && f.series ∈ errorSeries events i j : ℕ) := by
        rw [Counter.sum_countP (errorSeries events i j) (fun _ => true) Finished.series]
    _ = (recordedBetween events i j).countP Finished.isError := by
        refine congrArg Nat.cast (List.countP_congr ?_)
        intro f hf
        have hpos := countBefore_pos hij.le hf
        rw [Bool.true_and, decide_eq_true_iff, mem_errorSeries hij hj, matches5xx_series]
        exact and_iff_right hpos

theorem increase_of_series (hij : i < j) (hj : j < scrapeCount events) (key : Series) :
    increase ((((run events).scrapes.drop i).take (j - i + 1)).filterMap
        fun scrape => scrape.get? key) ≤
      (countBefore events key j : ℤ) - countBefore events key i := by
  have hmono := countBefore_mono_from events key i
  have hle := Counter.increase_shown_le hmono (j - i)
  rw [window_samples events key hij hj]
  simpa only [Nat.add_sub_of_le hij.le, Nat.add_zero] using hle

/-- The increase of one series is its requests in the window when it was there at the first
    scrape. -/
theorem increase_of_series_iff (hij : i < j) (hj : j < scrapeCount events) (key : Series) :
    increase ((((run events).scrapes.drop i).take (j - i + 1)).filterMap
        fun scrape => scrape.get? key) = (countBefore events key j : ℤ) - countBefore events key i ↔
      0 < countBefore events key i ∨ countBefore events key j = 0 := by
  have hmono := countBefore_mono_from events key i
  have hiff := Counter.increase_shown_iff hmono (j - i)
  rw [window_samples events key hij hj]
  simpa only [Nat.add_sub_of_le hij.le, Nat.add_zero] using hiff

end Window

/-- The SLI never counts an error that did not happen. -/
theorem errorIncrease_le (events : List Event) {i j : ℕ} (hij : i < j)
    (hj : j < scrapeCount events) :
    errorIncrease (run events).scrapes i j ≤
      (recordedBetween events i j).countP Finished.isError := by
  rw [← sum_recordedBetween hij hj]
  exact Finset.sum_le_sum fun key _ => increase_of_series hij hj key

/-- The SLI counts the errors between two scrapes exactly when each of them falls in a series
    that was recorded before the first of the two; otherwise it counts fewer. -/
theorem error_increase_exact_iff (events : List Event) (i j : ℕ) (hij : i < j)
    (hj : j < scrapeCount events) :
    errorIncrease (run events).scrapes i j =
        (recordedBetween events i j).countP Finished.isError ↔
      ∀ f ∈ recordedBetween events i j, f.isError = true →
        ∃ f' ∈ recordedBefore events i, f'.series = f.series := by
  rw [← sum_recordedBetween hij hj]
  show ∑ key ∈ errorSeries events i j, increase _ = _ ↔ _
  rw [Finset.sum_eq_sum_iff_of_le fun key _ => increase_of_series hij hj key]
  constructor
  · intro hexact f hf herror
    have hpos := countBefore_pos hij.le hf
    have hmem := (mem_errorSeries hij hj).mpr ⟨hpos, (matches5xx_series f).trans herror⟩
    refine recordedBefore_pos.mp ?_
    rcases (increase_of_series_iff hij hj f.series).mp (hexact f.series hmem) with h | h
    · exact h
    · omega
  · intro hbefore key hmem
    obtain ⟨hpos, hmatch⟩ := (mem_errorSeries hij hj).mp hmem
    refine (increase_of_series_iff hij hj key).mpr (Or.inl ?_)
    by_contra hzero
    obtain ⟨f, hf, rfl⟩ := exists_recordedBetween hij.le (Nat.eq_zero_of_not_pos hzero) hpos
    exact hzero (recordedBefore_pos.mpr (hbefore f hf ((matches5xx_series f).symm.trans hmatch)))

def burst : List Event :=
  [.finished ⟨"GET", "/api/items", 500⟩ (1 / 20) none, .scrape,
    .finished ⟨"GET", "/api/items", 500⟩ (1 / 20) none,
    .finished ⟨"GET", "/api/items", 200⟩ (1 / 20) none, .scrape,
    .finished ⟨"GET", "/api/items", 503⟩ (1 / 20) none, .scrape]

/-- A 500 after another is counted, and the first 503 is not. -/
theorem error_increase_exact_iff_burst :
    errorIncrease (run burst).scrapes 0 1 = 1 ∧ ¬ errorIncrease (run burst).scrapes 1 2 = 1 :=
  ⟨(error_increase_exact_iff burst 0 1 (by decide) (by decide)).mpr (by decide),
    fun h => absurd ((error_increase_exact_iff burst 1 2 (by decide) (by decide)).mp h)
      (by decide)⟩

/-- The first 500 of the process goes unnoticed. -/
theorem first_error_is_lost :
    ¬ ∀ (events : List Event) (i j : ℕ), i < j → j < scrapeCount events →
      errorIncrease (run events).scrapes i j =
        (recordedBetween events i j).countP Finished.isError := by
  intro h
  have hfirst := h [.scrape, .finished ⟨"GET", "/api/items", 500⟩ (1 / 20) none, .scrape] 0 1
    (by decide) (by decide)
  exact absurd hfirst (by decide)

end Prometheus
end ObservabilityStack
