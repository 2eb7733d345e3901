import ObservabilityStack.Lib.Visits
import ObservabilityStack.Loadgen.Timeline
import ObservabilityStack.Python.Float

/-!
# Which phases the slots fall into

The loop learns of a new phase when it wakes up inside it, and it wakes up at its slots. On a
clock on which only sleeping takes time, the slots follow from the scenario, the arithmetic and
the time the run began: the first is at the start, and each one sets the next, one interval of
the phase it falls into later. `beat` is that recursion. It is not a closed form, and there is
none to be had: the deadlines are running sums of rounded intervals, and whether such a sum
meets a boundary or misses it by one unit depends on every rounding on the way, and on the time
the run began.

`Reached i` says that some slot falls into the span of the phase number `i`. A phase that no
slot falls into is never selected, and its fault never armed. A phase that is the very object
selected before it is not entered either: `phase is not current` cannot tell them apart.
`EveryFaultEntered` is that neither happens to a phase with a fault.
-/

set_option autoImplicit false

namespace ObservabilityStack
namespace Loadgen

open Python (Rounding)

/-! ## The slots of a timeline

The recursion of the loop, without the loop: two numbers for each slot, when it was due and when
the dispatcher reads the clock for it, which differ by a rounding. -/

/-- The deadline of an iteration, and the time at which it begins. -/
structure Beat where
  nextSlot : ℚ
  time : ℚ
  deriving DecidableEq

/-- The iteration after one in a phase of the rate `rps`. A clock does not run backwards, so a
    sleep that is due at once ends at once. -/
def Beat.following (r : Rounding) (b : Beat) (rps : ℚ) : Beat :=
  let nextSlot := max (r.round (b.nextSlot + r.round (1 / rps))) b.time
  let remaining := r.round (nextSlot - b.time)
  ⟨nextSlot, if remaining > 0 then max b.time (r.round (b.time + remaining)) else b.time⟩

namespace Scenario

variable (s : Scenario) (r : Rounding) (started : ℚ)

/-- The place in the timeline of the phase that the iteration selects. -/
def place (b : Beat) : Option ℕ := s.owner (r.round (b.time - started))

/-- The iteration number `k`, if the scenario is not over before it. -/
def beat : ℕ → Option Beat
  | 0 => some ⟨started, started⟩
  | k + 1 => (beat k).bind fun b =>
      ((s.place r started b).bind (s.phases[·]?)).map fun phase => b.following r phase.rps

/-- The place of the iteration number `k`. -/
def placeAt (k : ℕ) : Option ℕ := (s.beat r started k).bind (s.place r started)

/-- Some slot falls into the span of the phase number `i`. -/
def Reached (i : ℕ) : Prop :=
  ∃ k b, s.beat r started k = some b ∧
    (s.start i : ℚ) ≤ r.round (b.time - started) ∧ r.round (b.time - started) < s.start (i + 1)

/-- Every phase with a fault is reached, and is not the object of the phase reached before it. -/
def EveryFaultEntered : Prop :=
  ∀ i phase, s.phases[i]? = some phase → phase.fault ≠ none →
    s.Reached r started i ∧
    ∀ j before, s.phases[j]? = some before → j < i → s.Reached r started j →
      (∀ m, s.Reached r started m → j < m → ¬ m < i) → before.ref ≠ phase.ref

/-- The faults of the timeline, in order. -/
def faults : List Fault := s.phases.filterMap Phase.fault

/-- The places of the first `k` iterations. -/
def visited (k : ℕ) : List ℕ := (List.range k).filterMap (s.placeAt r started)

variable {s r started} {k m i j : ℕ} {b b' : Beat}

theorem visited_succ (k : ℕ) :
    s.visited r started (k + 1) = s.visited r started k ++ (s.placeAt r started k).toList := by
  unfold visited
  rw [List.range_succ, List.filterMap_append]
  cases hplace : s.placeAt r started k <;> simp [hplace]

theorem mem_visited : i ∈ s.visited r started k ↔ ∃ m < k, s.placeAt r started m = some i := by
  simp [visited]

/-! ## Later slots are in later places

A slot is set no earlier than the iteration that sets it began, so the iterations begin one after
the other, rounded or not. Their places are in order with them, and a place that has been passed is
not met again. -/

theorem time_le_following (r : Rounding) (b : Beat) (rps : ℚ) :
    b.time ≤ (b.following r rps).time := by
  unfold Beat.following
  dsimp only
  split
  · exact le_max_left _ _
  · exact le_rfl

theorem beat_succ (h : s.beat r started (k + 1) = some b') :
    ∃ b phase, s.beat r started k = some b ∧
      (s.place r started b).bind (s.phases[·]?) = some phase ∧ b' = b.following r phase.rps := by
  rw [beat, Option.bind_eq_some_iff] at h
  obtain ⟨b, hb, hafter⟩ := h
  obtain ⟨phase, hphase, rfl⟩ := Option.map_eq_some_iff.mp hafter
  exact ⟨b, phase, hb, hphase, rfl⟩

theorem exists_beat_le (hb : s.beat r started m = some b') (hkm : k ≤ m) :
    ∃ b, s.beat r started k = some b ∧ b.time ≤ b'.time := by
  induction hkm generalizing b' with
  | refl => exact ⟨b', hb, le_rfl⟩
  | step _ ih =>
    obtain ⟨b₁, phase, hb₁, -, rfl⟩ := beat_succ hb
    obtain ⟨b, hbk, hle⟩ := ih hb₁
    exact ⟨b, hbk, hle.trans (time_le_following r b₁ phase.rps)⟩

theorem started_le (hb : s.beat r started k = some b) : started ≤ b.time := by
  obtain ⟨b₀, hb₀, hle⟩ := exists_beat_le hb (Nat.zero_le k)
  cases hb₀
  exact hle

/-- No slot comes before the run began. -/
theorem elapsed_nonneg (hb : s.beat r started k = some b) : 0 ≤ r.round (b.time - started) :=
  r.nonneg (sub_nonneg.mpr (started_le hb))

theorem placeAt_eq_some :
    s.placeAt r started k = some i ↔
      ∃ b, s.beat r started k = some b ∧ s.place r started b = some i := by
  rw [placeAt, Option.bind_eq_some_iff]

theorem reached_iff : s.Reached r started i ↔ ∃ k, s.placeAt r started k = some i := by
  unfold Reached
  simp only [placeAt_eq_some, place]
  constructor
  · rintro ⟨k, b, hb, hle, hlt⟩
    refine ⟨k, b, hb, (owner_eq_some_iff (elapsed_nonneg hb)).mpr ⟨?_, hle, hlt⟩⟩
    by_contra hpast
    have hsame : s.start (i + 1) = s.start i := by
      unfold start
      rw [List.take_of_length_le (by omega), List.take_of_length_le (by omega)]
    exact absurd hlt (not_lt.mpr (hsame ▸ hle))
  · rintro ⟨k, b, hb, howner⟩
    exact ⟨k, b, hb, ((owner_eq_some_iff (elapsed_nonneg hb)).mp howner).2⟩

theorem placeAt_lt (h : s.placeAt r started k = some i) : i < s.phases.length := by
  obtain ⟨b, hb, howner⟩ := placeAt_eq_some.mp h
  exact ((owner_eq_some_iff (elapsed_nonneg hb)).mp howner).1

theorem placeAt_mono (hkm : k ≤ m) (hi : s.placeAt r started k = some i)
    (hj : s.placeAt r started m = some j) : i ≤ j := by
  obtain ⟨b', hb', hownerj⟩ := placeAt_eq_some.mp hj
  obtain ⟨b, hb, hle⟩ := exists_beat_le hb' hkm
  obtain ⟨b₁, hb₁, howneri⟩ := placeAt_eq_some.mp hi
  cases hb.symm.trans hb₁
  exact Spans.locate_mono (r.mono (sub_le_sub_right hle started)) howneri hownerj

theorem visited_sorted (k : ℕ) : (s.visited r started k).Pairwise (· ≤ ·) := by
  induction k with
  | zero => exact .nil
  | succ k ih =>
    rw [visited_succ, List.pairwise_append]
    refine ⟨ih, ?_, ?_⟩
    · cases s.placeAt r started k <;> simp
    · intro i hi j hj
      obtain ⟨m, hmk, hm⟩ := mem_visited.mp hi
      exact placeAt_mono hmk.le hm (Option.mem_toList.mp hj)

theorem visited_lt : ∀ i ∈ s.visited r started k, i < s.phases.length := by
  intro i hi
  obtain ⟨m, -, hm⟩ := mem_visited.mp hi
  exact placeAt_lt hm

/-! ## What the slots enter

The places one after the other, with repetitions of one object taken out, are the phases that are
entered, and their faults are what is armed. -/

/-- The identity of the phase number `i`. -/
def refAt (s : Scenario) (i : ℕ) : Option ℕ := s.phases[i]?.map Phase.ref

def faultAt (s : Scenario) (i : ℕ) : Option Fault := s.phases[i]?.bind Phase.fault

/-- The faults of the phases that the first `k` iterations enter. -/
def entered (s : Scenario) (r : Rounding) (started : ℚ) (k : ℕ) : List Fault :=
  Visits.collected s.refAt s.faultAt none (s.visited r started k)

/-- The phase of the last of the first `k` iterations. -/
def lastEntered (s : Scenario) (r : Rounding) (started : ℚ) (k : ℕ) : Option Phase :=
  (s.visited r started k).getLast?.bind (s.phases[·]?)

section succ

variable {phase : Phase} (h : (s.placeAt r started k).bind (s.phases[·]?) = some phase)
include h

theorem lastEntered_succ : s.lastEntered r started (k + 1) = some phase := by
  obtain ⟨i, hi, hphase⟩ := Option.bind_eq_some_iff.mp h
  simp [lastEntered, visited_succ, hi, hphase]

/-- An iteration enters its phase unless it is the object entered last. -/
theorem entered_succ :
    s.entered r started (k + 1) = s.entered r started k ++
      if (s.lastEntered r started k).map Phase.ref = some phase.ref then []
      else phase.fault.toList := by
  obtain ⟨i, hi, hphase⟩ := Option.bind_eq_some_iff.mp h
  have href : s.refAt i = some phase.ref := by simp [refAt, hphase]
  have hfault : s.faultAt i = phase.fault := by simp [faultAt, hphase]
  have hlast : (s.visited r started k).getLast?.map s.refAt = some (s.refAt i) ↔
      (s.lastEntered r started k).map Phase.ref = some phase.ref := by
    rw [href, lastEntered]
    cases (s.visited r started k).getLast? with
    | none => simp
    | some j => simp [refAt]
  unfold entered
  rw [visited_succ, hi, Option.toList_some, Visits.collected_snoc, Option.or_none, hfault]
  simp only [hlast]

end succ

theorem beat_following {phase : Phase} (hb : s.beat r started k = some b)
    (h : (s.placeAt r started k).bind (s.phases[·]?) = some phase) :
    s.beat r started (k + 1) = some (b.following r phase.rps) := by
  rw [placeAt, hb, Option.bind_some] at h
  rw [beat, hb, Option.bind_some, h, Option.map_some]

theorem filterMap_range_getElem? {α β : Type*} (f : α → Option β) (xs : List α) :
    (List.range xs.length).filterMap (fun i => xs[i]?.bind f) = xs.filterMap f := by
  induction xs using List.reverseRecOn with
  | nil => rfl
  | append_singleton xs x ih =>
    have hinit : (List.range xs.length).filterMap (fun i => (xs ++ [x])[i]?.bind f) =
        (List.range xs.length).filterMap fun i => xs[i]?.bind f := by
      apply List.filterMap_congr
      intro i hi
      rw [List.getElem?_append_left (List.mem_range.mp hi)]
    have hlast : [xs.length].filterMap (fun i => (xs ++ [x])[i]?.bind f) = [x].filterMap f := by
      cases hx : f x <;> simp [hx]
    rw [List.length_append, List.length_singleton, List.range_succ, List.filterMap_append,
      List.filterMap_append, hinit, hlast, ih]

theorem faults_eq (s : Scenario) :
    s.faults = (List.range s.phases.length).filterMap s.faultAt :=
  (filterMap_range_getElem? Phase.fault s.phases).symm

theorem entered_eq_faults_iff (k : ℕ) :
    s.entered r started k = s.faults ↔ ∀ i phase, s.phases[i]? = some phase →
      phase.fault ≠ none → Visits.Fresh s.refAt (s.visited r started k) i := by
  rw [entered, faults_eq, Visits.collected_eq_iff (visited_sorted k) visited_lt]
  constructor
  · intro hall i phase hi hfault
    refine hall i (List.getElem?_eq_some_iff.mp hi).1 ?_
    simpa [faultAt, hi] using hfault
  · intro hall i hlt hfault
    obtain ⟨phase, hi⟩ : ∃ phase, s.phases[i]? = some phase :=
      ⟨_, List.getElem?_eq_getElem hlt⟩
    exact hall i phase hi (by simpa [faultAt, hi] using hfault)

/-- A place of the first `k` iterations is fresh in them exactly when it is in the whole walk. -/
theorem fresh_visited_iff {phase : Phase} (hphase : s.phases[i]? = some phase)
    (hi : i ∈ s.visited r started k) :
    Visits.Fresh s.refAt (s.visited r started k) i ↔
      ∀ j before, s.phases[j]? = some before → j < i → s.Reached r started j →
        (∀ m, s.Reached r started m → j < m → ¬ m < i) → before.ref ≠ phase.ref := by
  -- What is reached before `i` is reached in these iterations.
  have hearly : ∀ j < i, s.Reached r started j → j ∈ s.visited r started k := by
    intro j hji hj
    obtain ⟨m, hm⟩ := reached_iff.mp hj
    obtain ⟨l, hlk, hl⟩ := mem_visited.mp hi
    refine mem_visited.mpr ⟨m, ?_, hm⟩
    by_contra hmk
    exact absurd (placeAt_mono (by omega) hl hm) (not_le.mpr hji)
  have hreached : ∀ j ∈ s.visited r started k, s.Reached r started j := by
    intro j hj
    obtain ⟨m, -, hm⟩ := mem_visited.mp hj
    exact reached_iff.mpr ⟨m, hm⟩
  have href : ∀ j before, s.phases[j]? = some before →
      (s.refAt j ≠ s.refAt i ↔ before.ref ≠ phase.ref) := by
    intro j before hj
    simp [refAt, hj, hphase]
  constructor
  · intro hfresh j before hj hji hjr hnone
    rw [← href j before hj]
    exact hfresh.2 j (hearly j hji hjr) hji fun m hm => hnone m (hreached m hm)
  · intro hall
    refine ⟨hi, fun j hj hji hnone => ?_⟩
    obtain ⟨before, hbefore⟩ : ∃ before, s.phases[j]? = some before :=
      ⟨_, List.getElem?_eq_getElem (visited_lt j hj)⟩
    rw [href j before hbefore]
    refine hall j before hbefore hji (hreached j hj) ?_
    intro m hm hjm hmi
    exact hnone m (hearly m hmi hm) hjm hmi

/-- If some number of iterations enters every fault, every fault is entered. -/
theorem everyFaultEntered_of_entered (h : s.entered r started k = s.faults) :
    s.EveryFaultEntered r started := by
  intro i phase hphase hfault
  have hfresh := (entered_eq_faults_iff k).mp h i phase hphase hfault
  refine ⟨?_, (fresh_visited_iff hphase hfresh.1).mp hfresh⟩
  obtain ⟨m, -, hm⟩ := mem_visited.mp hfresh.1
  exact reached_iff.mpr ⟨m, hm⟩

/-- The iterations that reach every phase with a fault enter all the faults. -/
theorem entered_of_everyFaultEntered (h : s.EveryFaultEntered r started)
    (hall : ∀ i phase, s.phases[i]? = some phase → phase.fault ≠ none →
      i ∈ s.visited r started k) : s.entered r started k = s.faults := by
  rw [entered_eq_faults_iff]
  intro i phase hphase hfault
  rw [fresh_visited_iff hphase (hall i phase hphase hfault)]
  exact (h i phase hphase hfault).2

/-- When the scenario is over, no phase is reached any more. -/
theorem mem_visited_of_ended (hb : s.beat r started k = some b)
    (hend : s.place r started b = none) (hi : s.Reached r started i) :
    i ∈ s.visited r started k := by
  obtain ⟨m, hm⟩ := reached_iff.mp hi
  refine mem_visited.mpr ⟨m, ?_, hm⟩
  by_contra hkm
  obtain ⟨b', hb', howner⟩ := placeAt_eq_some.mp hm
  rcases (not_lt.mp hkm).eq_or_lt with rfl | hlt
  · cases hb.symm.trans hb'
    cases hend.symm.trans howner
  · obtain ⟨b₁, hb₁, -⟩ := exists_beat_le hb' (Nat.succ_le_of_lt hlt)
    obtain ⟨b₂, phase, hb₂, hphase, -⟩ := beat_succ hb₁
    cases hb.symm.trans hb₂
    rw [hend] at hphase
    cases hphase

/-- Finitely many iterations reach all the phases that are ever reached. -/
theorem exists_beat_of_reached (hall : ∀ i phase, s.phases[i]? = some phase →
      phase.fault ≠ none → s.Reached r started i) :
    ∃ k, (s.beat r started k).isSome ∧ ∀ i phase, s.phases[i]? = some phase →
      phase.fault ≠ none → i ∈ s.visited r started k := by
  -- Phase after phase, keep the later of two beats: by then both are visited.
  have hupto : ∀ n, ∃ k, (s.beat r started k).isSome ∧ ∀ i < n, ∀ phase,
      s.phases[i]? = some phase → phase.fault ≠ none → i ∈ s.visited r started k := by
    intro n
    induction n with
    | zero => exact ⟨0, rfl, fun i hi => absurd hi (Nat.not_lt_zero i)⟩
    | succ n ih =>
      obtain ⟨k, hk, hbefore⟩ := ih
      by_cases hn : ∃ phase, s.phases[n]? = some phase ∧ phase.fault ≠ none
      · obtain ⟨phase, hphase, hfault⟩ := hn
        obtain ⟨m, hm⟩ := reached_iff.mp (hall n phase hphase hfault)
        obtain ⟨b, hb, hplace⟩ := placeAt_eq_some.mp hm
        have hsucc : (s.beat r started (m + 1)).isSome := by
          simp [beat, hb, hplace, hphase]
        refine ⟨max k (m + 1), ?_, ?_⟩
        · rcases max_choice k (m + 1) with heq | heq <;> rw [heq] <;> assumption
        · intro i hi q hq hqfault
          rcases Nat.lt_succ_iff_lt_or_eq.mp hi with hlt | rfl
          · obtain ⟨l, hl, hli⟩ := mem_visited.mp (hbefore i hlt q hq hqfault)
            exact mem_visited.mpr ⟨l, lt_max_of_lt_left hl, hli⟩
          · exact mem_visited.mpr ⟨m, lt_max_of_lt_right (Nat.lt_succ_self m), hm⟩
      · refine ⟨k, hk, fun i hi q hq hqfault => ?_⟩
        rcases Nat.lt_succ_iff_lt_or_eq.mp hi with hlt | rfl
        · exact hbefore i hlt q hq hqfault
        · exact absurd ⟨q, hq, hqfault⟩ hn
  obtain ⟨k, hk, hmem⟩ := hupto s.phases.length
  exact ⟨k, hk, fun i phase hi hfault =>
    hmem i (List.getElem?_eq_some_iff.mp hi).1 phase hi hfault⟩

end Scenario

end Loadgen
end ObservabilityStack
