import ObservabilityStack.Python.Text
import Mathlib.Data.Rat.Defs
import Mathlib.Algebra.Order.BigOperators.Group.List
import Mathlib.Algebra.Order.Ring.Rat
import Mathlib.Data.List.Nodup
import Mathlib.Tactic.Linarith

/-!
# `loadgen/scenarios.py`: timelines of phases

A scenario is a list of phases, each a request rate and optionally a fault to arm when the
phase is entered. Times and rates are exact rationals.

`Phase.__post_init__` and `Scenario.__post_init__` refuse degenerate values, so the structures
carry what they check (`duration_pos`, `rps_pos`, `phases_ne`) and `Phase.new`,
`Scenario.new` are the constructors that may fail.

The driver asks `phase is not current`, an identity test on objects. `Phase.ref` is that
identity: the same object may stand at several places of the tuple, two objects may agree in
every other field, and `Scenario.ref_inj` says that one identity is one object.

That a list of phases is not empty and a rate not zero is used by every proof about pacing, and
none of them has to assume it. A scenario that would make the loop divide by zero or end before it
begins cannot be built, in the source by an exception and here by the type.
-/

set_option autoImplicit false

namespace ObservabilityStack
namespace Loadgen

/-- The literals `kind` may be. -/
inductive FaultKind
  | latency
  | errors
  | clear
  deriving DecidableEq, Repr

/-- The literal the kind is written as. -/
def FaultKind.text : FaultKind → String
  | .latency => "latency"
  | .errors => "errors"
  | .clear => "clear"

/-- A fault to arm when a phase starts, with the JSON members of the request that arms it. -/
structure Fault where
  kind : FaultKind
  payload : List (String × ℚ)
  deriving DecidableEq, Repr

/-- `path`: clearing has no path of its own, it is a `DELETE` of all faults. -/
def Fault.path (f : Fault) : String :=
  if f.kind = .clear then "/faults" else "/faults/" ++ f.kind.text

/-- `method`. -/
def Fault.method (f : Fault) : String :=
  if f.kind = .clear then "DELETE" else "POST"

/-- A phase that has passed its checks. `ref` is the identity of the object, by which the
    dispatcher tells that it is in another phase than before. -/
structure Phase where
  ref : ℕ
  name : String
  durationSeconds : ℤ
  rps : ℚ
  fault : Option Fault
  duration_pos : 0 < durationSeconds
  rps_pos : 0 < rps
  deriving DecidableEq

/-- `Phase(...)` with its `__post_init__`; the error is the message of the `ValueError`. -/
def Phase.new [Unicode] (ref : ℕ) (name : String) (durationSeconds : ℤ) (rps : ℚ)
    (fault : Option Fault) : Except String Phase :=
  if hd : durationSeconds ≤ 0 then
    .error s!"phase {Python.reprStr name} must last at least one second"
  else if hr : rps ≤ 0 then
    .error s!"phase {Python.reprStr name} must have a positive request rate"
  else
    .ok ⟨ref, name, durationSeconds, rps, fault, not_le.mp hd, not_le.mp hr⟩

/-- A scenario that has passed its checks. Two phases of it with one identity are one object. -/
structure Scenario where
  name : String
  description : String
  phases : List Phase
  expectedAlerts : List String
  phases_ne : phases ≠ []
  ref_inj : ∀ p ∈ phases, ∀ q ∈ phases, p.ref = q.ref → p = q

/-- `Scenario(...)` with its `__post_init__`, over a tuple in which one identity is one
    object. -/
def Scenario.new [Unicode] (name description : String) (phases : List Phase)
    (expectedAlerts : List String)
    (ref_inj : ∀ p ∈ phases, ∀ q ∈ phases, p.ref = q.ref → p = q) : Except String Scenario :=
  if h : phases = [] then
    .error s!"scenario {Python.reprStr name} has no phases"
  else
    .ok ⟨name, description, phases, expectedAlerts, h, ref_inj⟩

namespace Scenario

/-- `duration_seconds`. -/
def durationSeconds (s : Scenario) : ℤ := (s.phases.map Phase.durationSeconds).sum

/-- `max(phase.rps for phase in self.phases)`; the tuple is not empty. -/
def peakRps (s : Scenario) : ℚ :=
  (s.phases.map Phase.rps).tail.foldl max ((s.phases.map Phase.rps).head (by simp [s.phases_ne]))

/-- The loop of `phase_at`, with the running `boundary`. -/
def phaseFrom (elapsed : ℚ) : ℚ → List Phase → Option Phase
  | _, [] => none
  | boundary, phase :: rest =>
      if elapsed < boundary + phase.durationSeconds then some phase
      else phaseFrom elapsed (boundary + phase.durationSeconds) rest

/-- `phase_at`; the error is the message of the `ValueError`. -/
def phaseAt (s : Scenario) (elapsed : ℚ) : Except String (Option Phase) :=
  if elapsed < 0 then .error "elapsed_seconds must not be negative"
  else .ok (phaseFrom elapsed 0 s.phases)

theorem le_foldl_max {x : ℚ} : ∀ (xs : List ℚ) (a : ℚ), x = a ∨ x ∈ xs → x ≤ xs.foldl max a
  | [], a, h => by
    simp only [List.not_mem_nil, or_false] at h
    exact h.le
  | y :: xs, a, h => by
    have hstep : max a y ≤ xs.foldl max (max a y) := le_foldl_max xs (max a y) (Or.inl rfl)
    rw [List.foldl_cons]
    rcases h with rfl | h
    · exact (le_max_left _ _).trans hstep
    · rcases List.mem_cons.mp h with rfl | h
      · exact (le_max_right _ _).trans hstep
      · exact le_foldl_max xs (max a y) (Or.inr h)

theorem rps_le_peakRps {s : Scenario} {p : Phase} (h : p ∈ s.phases) :
    p.rps ≤ s.peakRps := by
  have hmem : p.rps ∈ s.phases.map Phase.rps := List.mem_map_of_mem h
  unfold peakRps
  apply le_foldl_max
  rw [← List.mem_cons, List.cons_head_tail]
  exact hmem

theorem peakRps_pos (s : Scenario) : 0 < s.peakRps := by
  obtain ⟨p, hp⟩ := List.exists_mem_of_ne_nil _ s.phases_ne
  exact p.rps_pos.trans_le (rps_le_peakRps hp)

theorem mem_of_phaseFrom {elapsed : ℚ} {p : Phase} : ∀ {b : ℚ} {ps : List Phase},
    phaseFrom elapsed b ps = some p → p ∈ ps
  | _, [], h => absurd h (by simp [phaseFrom])
  | b, q :: ps, h => by
    rw [phaseFrom] at h
    split at h
    · simp only [Option.some.injEq] at h
      exact List.mem_cons.mpr (Or.inl h.symm)
    · exact List.mem_cons.mpr (Or.inr (mem_of_phaseFrom h))

/-- A phase `phase_at` selects is one of the scenario's. -/
theorem mem_of_phaseAt {s : Scenario} {elapsed : ℚ} {p : Phase}
    (h : s.phaseAt elapsed = .ok (some p)) : p ∈ s.phases := by
  unfold phaseAt at h
  split at h
  · exact absurd h (by simp)
  · simp only [Except.ok.injEq] at h
    exact mem_of_phaseFrom h

/-- From the start of the run on, `phase_at` does not raise. -/
theorem phaseAt_of_nonneg (s : Scenario) {elapsed : ℚ} (h : 0 ≤ elapsed) :
    s.phaseAt elapsed = .ok (phaseFrom elapsed 0 s.phases) := by
  unfold phaseAt
  rw [if_neg (not_lt.mpr h)]

/-! ## The timeline

`phase_at` walks the phases and adds up their durations, and raises on a negative time. The end of
a phase belongs to the next one. -/

/-- `phase` stands in the timeline from `start` seconds on. -/
def StartsAt (s : Scenario) (phase : Phase) (start : ℤ) : Prop :=
  ∃ before after, s.phases = before ++ phase :: after ∧
    start = (before.map Phase.durationSeconds).sum

theorem phaseFrom_eq_some {elapsed : ℚ} {p : Phase} : ∀ {b : ℚ} {ps : List Phase},
    phaseFrom elapsed b ps = some p → b ≤ elapsed →
    ∃ before after, ps = before ++ p :: after ∧
      b + (before.map Phase.durationSeconds).sum ≤ elapsed ∧
      elapsed < b + (before.map Phase.durationSeconds).sum + p.durationSeconds
  | _, [], h, _ => absurd h (by simp [phaseFrom])
  | b, q :: ps, h, hb => by
    rw [phaseFrom] at h
    split at h
    · rename_i hlt
      obtain rfl := Option.some.inj h
      exact ⟨[], ps, rfl, by simpa using hb, by simpa using hlt⟩
    · rename_i hge
      obtain ⟨before, after, rfl, hle, hlt⟩ := phaseFrom_eq_some h (not_lt.mp hge)
      refine ⟨q :: before, after, rfl, ?_, ?_⟩
      · rw [List.map_cons, List.sum_cons, Int.cast_add]
        linarith
      · rw [List.map_cons, List.sum_cons, Int.cast_add]
        linarith

/-- A phase owns `[start, start + duration)`. -/
theorem phaseAt_eq_some {s : Scenario} {elapsed : ℚ} {p : Phase}
    (h : s.phaseAt elapsed = .ok (some p)) :
    ∃ start, s.StartsAt p start ∧ (start : ℚ) ≤ elapsed ∧
      elapsed < start + p.durationSeconds := by
  unfold phaseAt at h
  split at h
  · cases h
  · rename_i hpos
    obtain ⟨before, after, heq, hle, hlt⟩ :=
      phaseFrom_eq_some (Except.ok.inj h) (not_lt.mp hpos)
    rw [zero_add] at hle hlt
    exact ⟨_, ⟨before, after, heq, rfl⟩, hle, hlt⟩

/-- An object that stands once in the timeline has one start. -/
theorem StartsAt.unique {s : Scenario} (hdistinct : (s.phases.map Phase.ref).Nodup)
    {p q : Phase} {a b : ℤ} (hp : s.StartsAt p a) (hq : s.StartsAt q b) (href : p.ref = q.ref) :
    p = q ∧ a = b := by
  obtain ⟨before, after, hps, rfl⟩ := hp
  obtain ⟨before', after', hps', rfl⟩ := hq
  have heq : p = q := by
    apply s.ref_inj
    · simp [hps]
    · simp [hps']
    · exact href
  subst heq
  have hnodup : (before ++ p :: after).Nodup := hps ▸ hdistinct.of_map
  have hnot := (List.nodup_cons.mp (List.nodup_middle.mp hnodup)).1
  rw [List.mem_append, not_or] at hnot
  obtain ⟨rfl, -, -⟩ :=
    (List.append_cons_inj_of_notMem hnot.1 hnot.2).mp (hps.symm.trans hps')
  exact ⟨rfl, rfl⟩

end Scenario

end Loadgen
end ObservabilityStack
