import ObservabilityStack.Lib.Transition
import ObservabilityStack.Loadgen.Invariants
import ObservabilityStack.Loadgen.Percentile
import Mathlib.Data.Prod.Lex
import Mathlib.Data.String.Basic
import Mathlib.Tactic.Ring

/-!
# `Stats.summary` beside the workers

`summary` copies the class counts under the lock, and lets go of it. What else the line shows is
read afterwards: `sent` and `dropped` without the lock, the two percentiles and the error ratio
each under the lock again. Between two of these reads the workers go on recording. A step of the
call is one of its reads, so the line is made of six states of the statistics, and
`recordedBefore k` are the statuses that the `k`-th of them counts.

The line agrees with itself exactly when the first two states count the same statuses and the
last shows the same share of errors, to the digit that is printed (`summary_isSnapshot_iff`).
-/

set_option autoImplicit false

namespace ObservabilityStack
namespace Loadgen

open Transition

namespace Stats

/-- `error_ratio`. -/
def errorRatio (s : Stats) : ℚ :=
  if s.sent = 0 then 0 else (s.byClass.getD "5xx" 0 : ℚ) / s.sent

/-- `sorted(self.by_class.items())`. -/
def sortedClasses (s : Stats) : List (String × ℕ) := Sorting.sortBy toLex s.byClass.entries

/-- `summary` asks for quantiles that exist. -/
theorem exists_percentile (s : Stats) {quantile : ℚ} (h0 : 0 ≤ quantile) (h1 : quantile ≤ 1) :
    ∃ v, s.percentile quantile = .ok v := by
  by_cases hne : s.latencies = []
  · refine ⟨0, ?_⟩
    unfold percentile
    rw [if_pos ⟨h0, h1⟩, if_pos hne]
  · obtain ⟨v, hv, -⟩ := percentile_hasRank hne h0 h1
    exact ⟨v, hv⟩

end Stats

/-! ## The line

The text is that of the source. How a number is formatted is a parameter, so that nothing depends
on the side to which a float is rounded that lies between two decimals. -/

/-- The values of the replacement fields: the percentiles in milliseconds, the errors in
    percent. -/
structure Line where
  sent : ℕ
  dropped : ℕ
  classes : List (String × ℕ)
  p50 : ℚ
  p95 : ℚ
  errors : ℚ
  deriving DecidableEq

namespace Line

/-- The classes as they are printed, sorted by name. -/
def classesText (l : Line) : String :=
  " ".intercalate (l.classes.map fun e => s!"{e.1}={e.2}")

/-- What `summary` returns, where `milliseconds` is how `:.0f` prints a latency and `percent` how
    `:.1f` prints the share of errors: the quotients are floats, and where such a float lies on a
    tie it may be printed to either side of it. -/
def text (milliseconds percent : ℚ → String) (l : Line) : String :=
  s!"sent={l.sent} dropped={l.dropped} {l.classesText} " ++
    s!"p50={milliseconds l.p50}ms " ++ s!"p95={milliseconds l.p95}ms " ++
    s!"errors={percent l.errors}%"

/-- The count that is printed for the class `5xx`, if there is one. -/
def errorCount (l : Line) : ℕ :=
  ((l.classes.find? fun e => e.1 = "5xx").map Prod.snd).getD 0

/-- The line agrees with itself, the share of errors as it is printed. -/
structure IsSnapshot (percent : ℚ → String) (l : Line) : Prop where
  counts : (l.classes.map Prod.snd).sum = l.sent
  errors : percent l.errors =
    percent (if l.sent = 0 then 0 else 100 * l.errorCount / l.sent)

end Line

/-! ## The call

Six reads, in the order of the code, with the workers in between. The reader is a thread of its own
and changes nothing. -/

namespace Summary

/-- Which read comes next, with what has been read. -/
inductive Pc
  | classes
  | sent (classes : List (String × ℕ))
  | dropped (classes : List (String × ℕ)) (sent : ℕ)
  | p50 (classes : List (String × ℕ)) (sent dropped : ℕ)
  | p95 (classes : List (String × ℕ)) (sent dropped : ℕ) (p50 : ℚ)
  | errors (classes : List (String × ℕ)) (sent dropped : ℕ) (p50 p95 : ℚ)
  | returned (line : Line)
  | raised (exc : String)
  deriving DecidableEq

/-- The next read of the call. The classes, the percentiles and the ratio are read under the lock
    and each count in one piece, so each of the six is one step on the statistics as they are
    then. -/
def read (s : Stats) : Pc → Option Pc
  | .classes => some (.sent s.sortedClasses)
  | .sent classes => some (.dropped classes s.sent)
  | .dropped classes sent => some (.p50 classes sent s.dropped)
  | .p50 classes sent dropped =>
      match s.percentile (1 / 2) with
      | .ok p50 => some (.p95 classes sent dropped (p50 * 1000))
      | .error exc => some (.raised exc)
  | .p95 classes sent dropped p50 =>
      match s.percentile (19 / 20) with
      | .ok p95 => some (.errors classes sent dropped p50 (p95 * 1000))
      | .error exc => some (.raised exc)
  | .errors classes sent dropped p50 p95 =>
      some (.returned ⟨sent, dropped, classes, p50, p95, s.errorRatio * 100⟩)
  | .returned _ | .raised _ => none

/-- The statistics, and where the call of `summary` is. -/
structure State where
  stats : Stats
  pc : Pc
  deriving DecidableEq

def State.init : State := ⟨.init, .classes⟩

/-- `record` and `record_dropped` are any worker's or the dispatcher's. -/
inductive Action
  | record (status : ℤ) (latency : ℚ)
  | recordDropped
  | read
  deriving DecidableEq

/-- Somebody records, or the call goes on by a read. -/
def next (s : State) : Action → Option State
  | .record status latency => some { s with stats := s.stats.record status latency }
  | .recordDropped => some { s with stats := s.stats.recordDropped }
  | .read => (read s.stats s.pc).map fun pc => { s with pc := pc }

/-! ## What the reads have seen

The statistics only grow, and each read has seen a prefix of what was recorded in the end. -/

/-- The statuses that were recorded, in order. -/
def recorded : List Action → List ℤ :=
  List.filterMap fun
    | .record status _ => some status
    | _ => none

/-- The statuses that were recorded before the read number `k` of the call. -/
def recordedBefore : ℕ → List Action → List ℤ
  | _, [] => []
  | k, .record status _ :: as => status :: recordedBefore k as
  | k, .recordDropped :: as => recordedBefore k as
  | 0, .read :: _ => []
  | k + 1, .read :: as => recordedBefore k as

/-- How many reads of the call have been made. -/
def reads (as : List Action) : ℕ := as.count .read

theorem recordedBefore_append {k : ℕ} {as : List Action} (bs : List Action) (h : k < reads as) :
    recordedBefore k (as ++ bs) = recordedBefore k as := by
  induction as generalizing k with
  | nil => exact absurd h (Nat.not_lt_zero k)
  | cons a as ih =>
    cases a with
    | record status latency =>
      rw [List.cons_append, recordedBefore, recordedBefore, ih (by simpa [reads] using h)]
    | recordDropped =>
      rw [List.cons_append, recordedBefore, recordedBefore, ih (by simpa [reads] using h)]
    | read =>
      cases k with
      | zero => rfl
      | succ k =>
        rw [List.cons_append, recordedBefore, recordedBefore, ih (by simpa [reads] using h)]

theorem recordedBefore_read (as : List Action) :
    recordedBefore (reads as) (as ++ [.read]) = recorded as := by
  induction as with
  | nil => rfl
  | cons a as ih =>
    cases a with
    | record status latency =>
      have hreads : reads (.record status latency :: as) = reads as := by simp [reads]
      rw [hreads, List.cons_append, recordedBefore, ih]
      rfl
    | recordDropped =>
      have hreads : reads (.recordDropped :: as) = reads as := by simp [reads]
      rw [hreads, List.cons_append, recordedBefore, ih]
      rfl
    | read =>
      have hreads : reads (.read :: as) = reads as + 1 := by simp [reads]
      rw [hreads, List.cons_append, recordedBefore, ih]
      rfl

/-- A later read has seen what an earlier one has. -/
theorem recordedBefore_prefix_succ (k : ℕ) (as : List Action) :
    recordedBefore k as <+: recordedBefore (k + 1) as := by
  induction as generalizing k with
  | nil => exact List.prefix_refl _
  | cons a as ih =>
    cases a with
    | record status latency => exact (List.prefix_cons_inj status).mpr (ih k)
    | recordDropped => exact ih k
    | read =>
      cases k with
      | zero => exact List.nil_prefix
      | succ k => exact ih k

/-! ## What they have read

From the prefixes back to the line: two reads agree on a count exactly when nothing that counts was
recorded in between. -/

def errorsIn (statuses : List ℤ) : ℕ :=
  statuses.countP fun status => Stats.bucket status = "5xx"

/-- The share of server errors, in percent. -/
def errorPercent (statuses : List ℤ) : ℚ := errorsIn statuses / statuses.length * 100

/-- `s` counts these statuses. -/
structure Reflects (statuses : List ℤ) (s : Stats) : Prop where
  consistent : s.Consistent
  sent : s.sent = statuses.length
  errors : s.byClass.getD "5xx" 0 = errorsIn statuses

/-- And so does a copy of its classes. -/
structure Copies (statuses : List ℤ) (classes : List (String × ℕ)) : Prop where
  counts : (classes.map Prod.snd).sum = statuses.length
  errors : ((classes.find? fun e => e.1 = "5xx").map Prod.snd).getD 0 = errorsIn statuses

section reflects

variable {statuses : List ℤ} {s : Stats}

theorem Reflects.record (h : Reflects statuses s) (status : ℤ) (latency : ℚ) :
    Reflects (statuses ++ [status]) (s.record status latency) := by
  refine ⟨Stats.consistent_record h.consistent status latency, ?_, ?_⟩
  · rw [Stats.sent_record, h.sent, List.length_append, List.length_singleton]
  · rw [Stats.getD_byClass_record, h.errors, errorsIn, errorsIn, List.countP_append,
      List.countP_singleton]
    simp only [decide_eq_true_eq]

theorem Reflects.recordDropped (h : Reflects statuses s) : Reflects statuses s.recordDropped :=
  ⟨Stats.consistent_recordDropped h.consistent, h.sent, h.errors⟩

theorem Reflects.errorRatio (h : Reflects statuses s) :
    s.errorRatio * 100 = errorPercent statuses := by
  unfold Stats.errorRatio errorPercent
  rw [h.errors, h.sent]
  split
  · rename_i hzero
    rw [hzero, Nat.cast_zero, div_zero]
  · rfl

theorem Reflects.copies (h : Reflects statuses s) : Copies statuses s.sortedClasses := by
  have hperm : s.sortedClasses.Perm s.byClass.entries := Sorting.sortBy_perm _ _
  refine ⟨?_, ?_⟩
  · rw [(hperm.map Prod.snd).sum_eq, ← h.sent]
    exact h.consistent.byClass
  · have hnodup : (s.sortedClasses.map Prod.fst).Nodup :=
      (hperm.map Prod.fst).nodup_iff.mpr s.byClass.nodup
    have hget : Dict.get? ⟨s.sortedClasses, hnodup⟩ "5xx" = s.byClass.get? "5xx" :=
      Dict.get?_of_perm hperm "5xx"
    rw [← h.errors]
    exact congrArg (Option.getD · 0) hget

end reflects

/-- The class counts are those at the first read, and `sent` is from the second. -/
def Saw (as : List Action) (classes : List (String × ℕ)) (sent : ℕ) : Prop :=
  Copies (recordedBefore 0 as) classes ∧ sent = (recordedBefore 1 as).length

/-- The call has done as many reads as its place says, and holds what they saw. -/
def Holds (as : List Action) : Pc → Prop
  | .classes => reads as = 0
  | .sent classes => reads as = 1 ∧ Copies (recordedBefore 0 as) classes
  | .dropped classes sent => reads as = 2 ∧ Saw as classes sent
  | .p50 classes sent _ => reads as = 3 ∧ Saw as classes sent
  | .p95 classes sent _ _ => reads as = 4 ∧ Saw as classes sent
  | .errors classes sent _ _ _ => reads as = 5 ∧ Saw as classes sent
  | .returned line =>
      reads as = 6 ∧ Saw as line.classes line.sent ∧
        line.errors = errorPercent (recordedBefore 5 as)
  | .raised _ => False

section holds

variable {as : List Action} {s : Stats} {pc pc' : Pc} {classes : List (String × ℕ)} {sent : ℕ}

theorem Saw.append (h : Saw as classes sent) (hreads : 2 ≤ reads as) (a : Action) :
    Saw (as ++ [a]) classes sent := by
  unfold Saw
  rw [recordedBefore_append _ (by omega), recordedBefore_append _ (by omega)]
  exact h

/-- What was read stays as it was while the workers go on. -/
theorem Holds.update (h : Holds as pc) {a : Action} (ha : reads (as ++ [a]) = reads as) :
    Holds (as ++ [a]) pc := by
  cases pc with
  | classes => exact ha.trans h
  | sent classes =>
    obtain ⟨hreads, hcopies⟩ := h
    refine ⟨ha.trans hreads, ?_⟩
    rw [recordedBefore_append _ (by omega)]
    exact hcopies
  | dropped classes sent | p50 classes sent dropped | p95 classes sent dropped p50
  | errors classes sent dropped p50 p95 =>
    obtain ⟨hreads, hsaw⟩ := h
    exact ⟨ha.trans hreads, hsaw.append (by omega) a⟩
  | returned line =>
    obtain ⟨hreads, hsaw, herrors⟩ := h
    refine ⟨ha.trans hreads, hsaw.append (by omega) a, ?_⟩
    rw [recordedBefore_append _ (by omega)]
    exact herrors
  | raised exc => exact h

theorem reads_snoc_read (as : List Action) : reads (as ++ [.read]) = reads as + 1 := by
  simp [reads]

theorem Holds.read (h : Holds as pc) (hs : Reflects (recorded as) s)
    (hread : Summary.read s pc = some pc') : Holds (as ++ [.read]) pc' := by
  have hnow := recordedBefore_read as
  have hnext := reads_snoc_read as
  cases pc with
  -- The first read copies the classes, and with them everything recorded before it.
  | classes =>
    have hreads : reads as = 0 := h
    rw [hreads] at hnow hnext
    cases hread
    refine ⟨hnext, ?_⟩
    rw [hnow]
    exact hs.copies
  | sent classes =>
    obtain ⟨hreads, hcopies⟩ := h
    rw [hreads] at hnow hnext
    cases hread
    refine ⟨hnext, ?_, ?_⟩
    · rw [recordedBefore_append _ (by omega)]
      exact hcopies
    · rw [hnow]
      exact hs.sent
  -- The reads after it keep what the earlier ones saw, whatever is recorded in between.
  | dropped classes sent =>
    obtain ⟨hreads, hsaw⟩ := h
    rw [hreads] at hnext
    cases hread
    exact ⟨hnext, hsaw.append (by omega) _⟩
  | p50 classes sent dropped =>
    obtain ⟨hreads, hsaw⟩ := h
    rw [hreads] at hnext
    obtain ⟨v, hv⟩ : ∃ v, s.percentile (1 / 2) = .ok v :=
      s.exists_percentile (by norm_num) (by norm_num)
    simp only [Summary.read, hv] at hread
    cases hread
    exact ⟨hnext, hsaw.append (by omega) _⟩
  | p95 classes sent dropped p50 =>
    obtain ⟨hreads, hsaw⟩ := h
    rw [hreads] at hnext
    obtain ⟨v, hv⟩ : ∃ v, s.percentile (19 / 20) = .ok v :=
      s.exists_percentile (by norm_num) (by norm_num)
    simp only [Summary.read, hv] at hread
    cases hread
    exact ⟨hnext, hsaw.append (by omega) _⟩
  | errors classes sent dropped p50 p95 =>
    obtain ⟨hreads, hsaw⟩ := h
    rw [hreads] at hnow hnext
    cases hread
    refine ⟨hnext, hsaw.append (by omega) _, ?_⟩
    rw [hnow]
    exact hs.errorRatio
  | returned line | raised exc => cases hread

end holds

/-- **What a call has read**, in every interleaving; and it does not raise. -/
theorem holds_of_run {as : List Action} {s : State} (h : Steps next Anywhere .init as s) :
    Reflects (recorded as) s.stats ∧ Holds as s.pc := by
  refine h.invariant_trace (I := fun as s => Reflects (recorded as) s.stats ∧ Holds as s.pc) ?_ ?_
  · exact ⟨⟨Stats.consistent_init, rfl, rfl⟩, rfl⟩
  · intro as s a s' hI _ hn
    obtain ⟨hs, hpc⟩ := hI
    have hrecorded : recorded (as ++ [a]) = recorded as ++ recorded [a] := List.filterMap_append
    rw [hrecorded]
    cases a with
    | record status latency =>
      cases hn
      exact ⟨hs.record status latency, hpc.update (by simp [reads])⟩
    | recordDropped =>
      cases hn
      rw [show recorded [.recordDropped] = [] from rfl, List.append_nil]
      exact ⟨hs.recordDropped, hpc.update (by simp [reads])⟩
    | read =>
      obtain ⟨pc', hread, rfl⟩ := Option.map_eq_some_iff.mp hn
      rw [show recorded [.read] = [] from rfl, List.append_nil]
      exact ⟨hs, hpc.read hs hread⟩

/-- The printed `sent` may be ahead of the printed classes, and never behind. -/
theorem sum_classes_le_sent {as : List Action} {s : State} {line : Line}
    (h : Steps next Anywhere .init as s) (hpc : s.pc = .returned line) :
    (line.classes.map Prod.snd).sum ≤ line.sent := by
  obtain ⟨-, hholds⟩ := holds_of_run h
  rw [hpc] at hholds
  obtain ⟨-, ⟨hcopies, hsent⟩, -⟩ := hholds
  rw [hcopies.counts, hsent]
  exact (recordedBefore_prefix_succ 0 as).length_le

/-- **A progress line agrees with itself exactly when nothing was recorded between its first two
    reads, and what was recorded up to the last left the printed share of errors alone**, however
    shares are printed. -/
theorem summary_isSnapshot_iff (percent : ℚ → String) (as : List Action) (s : State) (line : Line)
    (h : Steps next Anywhere .init as s) (hpc : s.pc = .returned line) :
    line.IsSnapshot percent ↔
      recordedBefore 1 as = recordedBefore 0 as ∧
        percent (errorPercent (recordedBefore 5 as)) =
          percent (errorPercent (recordedBefore 0 as)) := by
  obtain ⟨-, hholds⟩ := holds_of_run h
  rw [hpc] at hholds
  obtain ⟨-, ⟨hcopies, hsent⟩, herrors⟩ := hholds
  -- The classes were copied first and the count read second; they agree when nothing came
  -- between.
  have hcounts : (line.classes.map Prod.snd).sum = line.sent ↔
      recordedBefore 1 as = recordedBefore 0 as := by
    rw [hcopies.counts, hsent]
    constructor
    · intro hlength
      exact ((recordedBefore_prefix_succ 0 as).eq_of_length hlength).symm
    · intro heq
      rw [heq]
  have hquotient : recordedBefore 1 as = recordedBefore 0 as →
      (if line.sent = 0 then 0 else 100 * (line.errorCount : ℚ) / line.sent) =
        errorPercent (recordedBefore 0 as) := by
    intro heq
    have hcount : line.errorCount = errorsIn (recordedBefore 0 as) := hcopies.errors
    rw [hsent, heq, hcount]
    unfold errorPercent
    split
    · rename_i hzero
      rw [hzero, Nat.cast_zero, div_zero, zero_mul]
    · ring
  constructor
  · intro hsnap
    have heq := hcounts.mp hsnap.counts
    refine ⟨heq, ?_⟩
    rw [← hquotient heq, ← herrors]
    exact hsnap.errors
  · intro hsame
    obtain ⟨heq, hshare⟩ := hsame
    refine ⟨hcounts.mpr heq, ?_⟩
    rw [hquotient heq, ← hshare, ← herrors]

/-- A success, and an error that is recorded while the line is made. -/
def tornRun : List Action :=
  [.record 200 (1 / 100), .read, .record 503 (1 / 50), .read, .read, .read, .read, .read]

def tornLine : Line where
  sent := 2
  dropped := 0
  classes := [("2xx", 1)]
  p50 := 10
  p95 := 20
  errors := 50

example : tornLine.text (Python.fixed 0) (Python.fixed 1) =
    "sent=2 dropped=0 2xx=1 p50=10ms p95=20ms errors=50.0%" := by
  decide +kernel

theorem run_tornRun : ∃ s, Steps next Anywhere .init tornRun s ∧ s.pc = .returned tornLine := by
  have hend : (exec next .init tornRun).map State.pc = some (.returned tornLine) := by
    decide +kernel
  obtain ⟨s, hs, hpc⟩ := Option.map_eq_some_iff.mp hend
  exact ⟨s, steps_of_exec hs, hpc⟩

theorem summary_isSnapshot_iff_torn : ¬ tornLine.IsSnapshot (Python.fixed 1) := by
  obtain ⟨s, hrun, hpc⟩ := run_tornRun
  rw [summary_isSnapshot_iff (Python.fixed 1) tornRun s tornLine hrun hpc]
  intro hsame
  exact absurd hsame.1 (by decide +kernel)

/-- The counts of the classes and `sent` are from different moments. -/
theorem summary_is_torn : ¬ ∀ (as : List Action) (s : State) (line : Line),
    Steps next Anywhere .init as s → s.pc = .returned line →
    line.IsSnapshot (Python.fixed 1) := by
  intro h
  obtain ⟨s, hrun, hpc⟩ := run_tornRun
  exact absurd (h tornRun s tornLine hrun hpc).counts (by decide)

end Summary

/-! ## Beside the generator

`_progress` calls `summary` on the statistics of a generator that is running. -/

/-- A step of the generator, or a read of the summary that is being made. -/
inductive ProgressAction
  | generator (a : Action)
  | read
  deriving DecidableEq

/-- The two threads share the statistics and nothing else. -/
def progressNext (g : LoadGenerator) (x : State × Summary.Pc) :
    ProgressAction → Option (State × Summary.Pc)
  | .generator a => (next g x.1 a).map fun s => (s, x.2)
  | .read => (Summary.read x.1.stats x.2).map fun pc => (x.1, pc)

/-- A step of the generator is one of the two calls, or leaves the statistics alone. -/
theorem stats_of_next {g : LoadGenerator} {s s' : State} {a : Action}
    (h : next g s a = some s') :
    s'.stats = s.stats ∨ (∃ status latency, s'.stats = s.stats.record status latency) ∨
      s'.stats = s.stats.recordDropped := by
  cases a with
  | stop =>
    cases h
    exact Or.inl rfl
  | dispatcher a =>
    cases dispatcherStep_cases h with
    | recordDropped phase now hpc => exact Or.inr (Or.inr rfl)
    | readNow now s' hpc hsel => exact Or.inl hsel.frame.2.2.1
    | _ => exact Or.inl rfl
  | worker w a =>
    obtain ⟨pc, q, st, pc', q', st', -, -, hst, hmove, rfl⟩ := workerStep_cases h
    subst hst
    cases hmove with
    | record k code started now q st => exact Or.inr (Or.inl ⟨code, _, rfl⟩)
    | _ => exact Or.inl rfl

/-- The statistics of a generator are a run of `Summary`, whatever the call sees of them. -/
theorem exists_summary_run {g : LoadGenerator} {as : List ProgressAction}
    {x : State × Summary.Pc}
    (h : Steps (progressNext g) Anywhere (.init, .classes) as x) :
    ∃ bs, Steps Summary.next Anywhere .init bs ⟨x.1.stats, x.2⟩ := by
  refine h.invariant
    (I := fun x => ∃ bs, Steps Summary.next Anywhere .init bs ⟨x.1.stats, x.2⟩) ⟨[], .refl⟩ ?_
  intro x a x' hI _ hn
  obtain ⟨bs, hrun⟩ := hI
  cases a with
  | generator a =>
    obtain ⟨s', hs', rfl⟩ := Option.map_eq_some_iff.mp hn
    dsimp only
    rcases stats_of_next hs' with hst | ⟨status, latency, hst⟩ | hst
    · rw [hst]
      exact ⟨bs, hrun⟩
    · rw [hst]
      exact ⟨_, hrun.snoc (a := .record status latency) trivial rfl⟩
    · rw [hst]
      exact ⟨_, hrun.snoc (a := .recordDropped) trivial rfl⟩
  | read =>
    obtain ⟨pc', hread, rfl⟩ := Option.map_eq_some_iff.mp hn
    exact ⟨_, hrun.snoc (a := .read) trivial (by rw [Summary.next, hread]; rfl)⟩

/-- **The line of a running generator**: the call returns one, and of what was sent it never
    prints less than the classes add up to. -/
theorem progress_line {g : LoadGenerator} {as : List ProgressAction} {x : State × Summary.Pc}
    (h : Steps (progressNext g) Anywhere (.init, .classes) as x) :
    (∀ exc, x.2 ≠ .raised exc) ∧
      ∀ line, x.2 = .returned line → (line.classes.map Prod.snd).sum ≤ line.sent := by
  obtain ⟨bs, hrun⟩ := exists_summary_run h
  constructor
  · intro exc hpc
    have hholds := (Summary.holds_of_run hrun).2
    rw [hpc] at hholds
    exact hholds
  · intro line hpc
    exact Summary.sum_classes_le_sent hrun hpc

end Loadgen
end ObservabilityStack
