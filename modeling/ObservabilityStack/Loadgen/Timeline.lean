import ObservabilityStack.Lib.Spans
import ObservabilityStack.Loadgen.Scenarios
import Mathlib.Order.Interval.Set.Defs
import Mathlib.Tactic.NormNum

/-!
# `phase_at` partitions the timeline

The phases of a scenario are spans laid end to end, and `phase_at` is the scan for the span an
instant is in. What it returns is an object, and the same object may stand at several places of
the tuple. `owner` is the place: the number of the iteration that returns.

The owner is what the pacing and the faults are about, since two places of one object differ in
when they are. That every instant of the timeline has exactly one is `Spans`; that the scan finds
it is proved here, by induction on the phases with the sum of the durations so far.
-/

set_option autoImplicit false

namespace ObservabilityStack
namespace Loadgen
namespace Scenario

/-- How long the phases are, in order. -/
def lengths (s : Scenario) : List ℚ := s.phases.map fun phase => (phase.durationSeconds : ℚ)

/-- The sum of the durations before the phase number `i`. -/
def start (s : Scenario) (i : ℕ) : ℤ := ((s.phases.take i).map Phase.durationSeconds).sum

/-- The number of the iteration in which `phase_at` returns a phase. -/
def owner (s : Scenario) (elapsed : ℚ) : Option ℕ := Spans.locate elapsed 0 s.lengths

variable {s : Scenario} {elapsed : ℚ} {i : ℕ} {phase : Phase}

theorem lengths_nonneg : ∀ d ∈ s.lengths, 0 ≤ d := by
  intro d hd
  obtain ⟨phase, -, rfl⟩ := List.mem_map.mp hd
  exact Int.cast_nonneg phase.duration_pos.le

theorem offset_lengths (s : Scenario) (i : ℕ) : Spans.offset s.lengths i = s.start i := by
  unfold Spans.offset lengths start
  rw [← List.map_take]
  induction s.phases.take i with
  | nil => simp
  | cons phase phases ih => rw [List.map_cons, List.map_cons, List.sum_cons, List.sum_cons, ih,
      Int.cast_add]

theorem sum_lengths (s : Scenario) : s.lengths.sum = s.durationSeconds := by
  have htake := offset_lengths s s.phases.length
  unfold Spans.offset start at htake
  rwa [List.take_length, lengths, List.take_of_length_le (by simp)] at htake

theorem start_succ (h : s.phases[i]? = some phase) :
    s.start (i + 1) = s.start i + phase.durationSeconds := by
  unfold start
  rw [List.take_add_one, h]
  simp

/-- The loop returns the phase of its last iteration. -/
theorem phaseFrom_eq_locate (elapsed : ℚ) : ∀ (b : ℚ) (phases : List Phase),
    phaseFrom elapsed b phases =
      (Spans.locate elapsed b (phases.map fun phase => (phase.durationSeconds : ℚ))).bind
        (phases[·]?)
  | _, [] => rfl
  | b, phase :: phases => by
    rw [phaseFrom, List.map_cons, Spans.locate]
    split
    · rfl
    · rw [phaseFrom_eq_locate, Option.bind_map]
      rfl

theorem phaseAt_eq_owner (h : 0 ≤ elapsed) :
    s.phaseAt elapsed = .ok ((s.owner elapsed).bind (s.phases[·]?)) := by
  rw [phaseAt_of_nonneg s h, phaseFrom_eq_locate]
  rfl

theorem owner_eq_some_iff (h : 0 ≤ elapsed) :
    s.owner elapsed = some i ↔
      i < s.phases.length ∧ (s.start i : ℚ) ≤ elapsed ∧ elapsed < s.start (i + 1) := by
  unfold owner
  rw [Spans.locate_eq_some_iff lengths_nonneg h, zero_add, zero_add, offset_lengths,
    offset_lengths]
  simp [lengths]

theorem owner_eq_none_iff (h : 0 ≤ elapsed) :
    s.owner elapsed = none ↔ (s.durationSeconds : ℚ) ≤ elapsed := by
  unfold owner
  rw [Spans.locate_eq_none_iff lengths_nonneg h, zero_add, sum_lengths]

theorem phaseAt_eq_none_iff (h : 0 ≤ elapsed) :
    s.phaseAt elapsed = .ok none ↔ (s.durationSeconds : ℚ) ≤ elapsed := by
  rw [phaseAt_eq_owner h, ← owner_eq_none_iff h, Except.ok.injEq, Option.bind_eq_none_iff]
  constructor
  · intro hnone
    cases howner : s.owner elapsed with
    | none => rfl
    | some i =>
      have hi := ((owner_eq_some_iff h).mp howner).1
      exact absurd (hnone i howner) (by simp [hi])
  · intro hnone i hi
    cases hnone.symm.trans hi

theorem nonneg_of_phaseAt {selected : Option Phase} (h : s.phaseAt elapsed = .ok selected) :
    0 ≤ elapsed := by
  by_contra hneg
  unfold phaseAt at h
  rw [if_pos (not_le.mp hneg)] at h
  cases h

/-- `phase_at` selects nothing once the scenario is over. -/
theorem lt_durationSeconds (h : s.phaseAt elapsed = .ok (some phase)) :
    elapsed < s.durationSeconds := by
  by_contra hover
  cases h.symm.trans ((phaseAt_eq_none_iff (nonneg_of_phaseAt h)).mpr (not_lt.mp hover))

/-- An object is returned exactly while one of its places owns the instant. -/
theorem phaseAt_eq_some_iff (h : 0 ≤ elapsed) :
    s.phaseAt elapsed = .ok (some phase) ↔
      ∃ i, s.phases[i]? = some phase ∧ (s.start i : ℚ) ≤ elapsed ∧ elapsed < s.start (i + 1) := by
  rw [phaseAt_eq_owner h, Except.ok.injEq, Option.bind_eq_some_iff]
  constructor
  · intro hsome
    obtain ⟨i, howner, hi⟩ := hsome
    exact ⟨i, hi, ((owner_eq_some_iff h).mp howner).2⟩
  · intro hsome
    obtain ⟨i, hi, hbounds⟩ := hsome
    have hlt : i < s.phases.length := (List.getElem?_eq_some_iff.mp hi).1
    exact ⟨i, (owner_eq_some_iff h).mpr ⟨hlt, hbounds⟩, hi⟩

/-- **`phase_at` partitions the timeline**: at every instant the loop returns in the iteration
    whose half-open span the instant is in, and after the last span it returns nothing. -/
theorem phaseAt_partitions_timeline (s : Scenario) (t : ℚ) (ht : 0 ≤ t) :
    s.phaseAt t = .ok ((s.owner t).bind (s.phases[·]?)) ∧
    (∀ i, s.owner t = some i ↔
      i < s.phases.length ∧ (s.start i : ℚ) ≤ t ∧ t < s.start (i + 1)) ∧
    (∀ phase, s.phaseAt t = .ok (some phase) ↔
      ∃ i, s.phases[i]? = some phase ∧ (s.start i : ℚ) ≤ t ∧ t < s.start (i + 1)) ∧
    (s.phaseAt t = .ok none ↔ (s.durationSeconds : ℚ) ≤ t) ∧
    (∀ t' i j, t ≤ t' → s.owner t = some i → s.owner t' = some j → i ≤ j) ∧
    ∀ i phase, s.phases[i]? = some phase →
      (s.owner t = some i ↔ t ∈ Set.Ico (s.start i : ℚ) (s.start i + phase.durationSeconds)) := by
  refine ⟨phaseAt_eq_owner ht, fun i => owner_eq_some_iff ht, fun phase => phaseAt_eq_some_iff ht,
    phaseAt_eq_none_iff ht, fun t' i j hle => Spans.locate_mono hle, ?_⟩
  intro i phase hi
  have hlt : i < s.phases.length := (List.getElem?_eq_some_iff.mp hi).1
  rw [owner_eq_some_iff ht, start_succ hi, Int.cast_add, Set.mem_Ico]
  exact and_iff_right hlt

/-- A quiet minute, and half a minute of errors. -/
def quiet : Phase where
  ref := 0
  name := "quiet"
  durationSeconds := 60
  rps := 10
  fault := none
  duration_pos := by decide
  rps_pos := by norm_num

def outage : Phase where
  ref := 1
  name := "outage"
  durationSeconds := 30
  rps := 10
  fault := some ⟨.errors, [("ratio", 1), ("status_code", 503), ("ttl_seconds", 30)]⟩
  duration_pos := by decide
  rps_pos := by norm_num

def twoPhases : Scenario where
  name := "unit"
  description := ""
  phases := [quiet, outage]
  expectedAlerts := []
  phases_ne := by simp
  ref_inj := by simp [quiet, outage]

/-- The boundary belongs to the phase after it. -/
theorem phaseAt_partitions_timeline_boundary :
    twoPhases.owner 60 = some 1 ∧ twoPhases.phaseAt 60 = .ok (some outage) ∧
      twoPhases.phaseAt 60 ≠ .ok none := by
  have hstart : twoPhases.start 1 = 60 := rfl
  have hend : twoPhases.durationSeconds = 90 := rfl
  obtain ⟨hphase, -, -, hnone, -, howns⟩ := phaseAt_partitions_timeline twoPhases 60 (by norm_num)
  have howner : twoPhases.owner 60 = some 1 := by
    rw [howns 1 outage rfl, hstart, Set.mem_Ico]
    norm_num [outage]
  refine ⟨howner, ?_, ?_⟩
  · rw [hphase, howner]
    rfl
  · rw [ne_eq, hnone, hend]
    norm_num

end Scenario
end Loadgen
end ObservabilityStack
