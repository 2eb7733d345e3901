import ObservabilityStack.Loadgen.Invariants
import Mathlib.Algebra.Order.Field.Rat
import Mathlib.Logic.Function.Basic

/-!
# The driver and the clock it reads

In `Driver` a clock reading is whatever its action says. Here there is a clock: `time` is what
it shows, only `elapse` moves it and only forwards, and an action that reads it reads that. A
sleep of `d` seconds cannot end before `d` seconds after the reading it was computed from.
Nothing else is timed. Any amount of time may pass between two actions, in particular while the
dispatcher waits for the answer to an arming, and any number of actions may happen at one time.

What a result about time asks of its environment (requests that are short, a sleep that is
exact) is a side condition on the actions of a run, so it is stated where the result is. One
thing needs no condition: the loop does not come back before its slot is due (`Timed.paced`).
-/

set_option autoImplicit false

namespace ObservabilityStack
namespace Loadgen

open Transition

/-- `due` is when the sleep in progress may end, `taken w` when the worker `w` last took a
    slot. The code keeps neither. -/
structure Timed where
  state : State
  time : ℚ
  due : ℚ
  taken : ℕ → ℚ

/-- A monotonic clock may start anywhere. -/
def Timed.init (time : ℚ) : Timed := ⟨.init, time, time, fun _ => time⟩

/-- Time passes, or a thread takes a step in no time. -/
inductive TimedAction
  | elapse (seconds : ℚ)
  | act (a : Action)
  deriving DecidableEq

/-- What the action reads off the clock. -/
def Action.reading : Action → Option ℚ
  | .dispatcher (.readStarted now) | .dispatcher (.readNow now) | .dispatcher (.pace now)
  | .worker _ (.choose _ now) | .worker _ (.record now) => some now
  | _ => none

/-- The action may be taken at this time. -/
def Timed.Allows (c : Timed) (a : Action) : Prop :=
  (∀ now ∈ a.reading, now = c.time) ∧ (a = .dispatcher .wake → c.due ≤ c.time)

instance (c : Timed) (a : Action) : Decidable (c.Allows a) :=
  inferInstanceAs (Decidable (_ ∧ _))

/-- `a` was taken and left the driver in `s`. -/
def Timed.after (c : Timed) (s : State) : Action → Timed
  | .dispatcher (.pace now) =>
      { c with
        state := s
        due := match s.pc with
          | .sleeping seconds => now + seconds
          | _ => c.due }
  | .worker w (.getSlot _) => { c with state := s, taken := Function.update c.taken w c.time }
  | _ => { c with state := s }

/-- A step that reads the clock reads the time there is. -/
def timedNext (g : LoadGenerator) (c : Timed) : TimedAction → Option Timed
  | .elapse seconds => if 0 < seconds then some { c with time := c.time + seconds } else none
  | .act a => if c.Allows a then (next g c.state a).map fun s => c.after s a else none

/-- The actions of a timed run, without its time. -/
def untimed : List TimedAction → List Action :=
  List.filterMap fun
    | .elapse _ => none
    | .act a => some a

/-! ## What a timed step can do

Time passes, or the driver takes a step for which the clock says what it read. -/

section after

variable (c : Timed) (s : State) (a : Action)

@[simp] theorem Timed.after_state : (c.after s a).state = s := by
  unfold Timed.after
  split <;> rfl

@[simp] theorem Timed.after_time : (c.after s a).time = c.time := by
  unfold Timed.after
  split <;> rfl

theorem Timed.after_worker_due (w : ℕ) (a : WorkerAction) :
    (c.after s (.worker w a)).due = c.due := by
  cases a <;> rfl

end after

inductive TimedStep (g : LoadGenerator) (c : Timed) : TimedAction → Timed → Prop
  | elapse (seconds : ℚ) (hpos : 0 < seconds) :
      TimedStep g c (.elapse seconds) { c with time := c.time + seconds }
  | act (a : Action) (s : State) (hread : ∀ now ∈ a.reading, now = c.time)
      (hwake : a = .dispatcher .wake → c.due ≤ c.time) (hnext : next g c.state a = some s) :
      TimedStep g c (.act a) (c.after s a)

theorem timedNext_cases {g : LoadGenerator} {c c' : Timed} {a : TimedAction}
    (h : timedNext g c a = some c') : TimedStep g c a c' := by
  cases a with
  | elapse seconds =>
    simp only [timedNext] at h
    split at h
    · cases h
      exact .elapse seconds ‹_›
    · cases h
  | act a =>
    simp only [timedNext] at h
    split at h
    · rename_i hallow
      obtain ⟨s, hs, rfl⟩ := Option.map_eq_some_iff.mp h
      exact .act a s hallow.1 hallow.2 hs
    · cases h

/-- A timed run is a run: whatever holds over every run of the driver holds here. -/
theorem run_of_timed {g : LoadGenerator} {ok : Timed → TimedAction → Prop} {t : ℚ}
    {as : List TimedAction} {c : Timed} (h : Steps (timedNext g) ok (.init t) as c) :
    Run g (untimed as) c.state := by
  induction h with
  | refl => exact .refl
  | snoc _ _ hn ih =>
    unfold untimed at ih ⊢
    rw [List.filterMap_append]
    cases timedNext_cases hn with
    | elapse seconds hpos => simpa using ih
    | act a s hread hwake hnext =>
      rw [Timed.after_state]
      exact .snoc ih trivial hnext

theorem Timed.inv {g : LoadGenerator} {ok : Timed → TimedAction → Prop} {t : ℚ}
    {as : List TimedAction} {c : Timed} (h : Steps (timedNext g) ok (.init t) as c) :
    Inv g c.state :=
  (run_of_timed h).inv

/-! ## The loop waits for its slots

A sleep has a length computed from the deadline, and does not end early. So the next reading is at
the deadline or later, whatever else happens. -/

/-- The loop comes back to its head no earlier than the next slot is due. -/
def State.Paced (s : State) (time due : ℚ) : Prop :=
  match s.pc with
  | .submitting _ | .looping | .selecting => s.nextSlot ≤ time
  | .sleeping _ => s.nextSlot ≤ due
  | _ => True

theorem paced_dispatcher {g : LoadGenerator} {c : Timed} {s : State} {a : DispatcherAction}
    (hpaced : c.state.Paced c.time c.due)
    (hread : ∀ now ∈ (Action.dispatcher a).reading, now = c.time)
    (hwake : Action.dispatcher a = .dispatcher .wake → c.due ≤ c.time)
    (h : DispatcherStep g c.state a s) :
    (c.after s (.dispatcher a)).state.Paced (c.after s (.dispatcher a)).time
      (c.after s (.dispatcher a)).due := by
  cases h with
  | readStarted now hpc =>
    show now ≤ c.time
    exact (hread now rfl).le
  | submit n hpc => simpa [State.Paced, Timed.after, hpc] using hpaced
  | checkStop hpc =>
    cases hstop : c.state.stop with
    | true => trivial
    | false => rcases hpc with hpc | hpc <;> simpa [State.Paced, Timed.after, hpc] using hpaced
  | readNow now s hpc hsel => cases hsel <;> trivial
  | pace phase now clock nextSlot hpc hnext =>
    have hclock : clock = c.time := hread clock rfl
    by_cases hsleep : nextSlot - clock > 0
    · simp [State.Paced, Timed.after, hsleep]
    · have hpast : nextSlot ≤ c.time := by linarith
      simp [State.Paced, Timed.after, hclock, hpast, not_lt.mpr hpast]
  | wake seconds hpc =>
    have hdue : c.state.nextSlot ≤ c.due := by simpa [State.Paced, hpc] using hpaced
    exact hdue.trans (hwake rfl)
  | _ => trivial

theorem paced_elapse {s : State} {time due dt : ℚ} (hpaced : s.Paced time due) (hdt : 0 ≤ dt) :
    s.Paced (time + dt) due := by
  unfold State.Paced at hpaced ⊢
  cases hpc : s.pc with
  | submitting | looping | selecting =>
    simp only [hpc] at hpaced ⊢
    linarith
  | sleeping => simpa [hpc] using hpaced
  | _ => trivial

/-- Whatever the environment does with the time. -/
theorem Timed.paced {g : LoadGenerator} {ok : Timed → TimedAction → Prop} {t : ℚ}
    {as : List TimedAction} {c : Timed} (h : Steps (timedNext g) ok (.init t) as c) :
    c.state.Paced c.time c.due := by
  refine h.invariant (I := fun c => c.state.Paced c.time c.due) trivial ?_
  intro c a c' hpaced _ hn
  cases timedNext_cases hn with
  | elapse seconds hpos => exact paced_elapse hpaced hpos.le
  | act a s hread hwake hnext =>
    cases a with
    | stop =>
      cases hnext
      exact hpaced
    | dispatcher a => exact paced_dispatcher hpaced hread hwake (dispatcherStep_cases hnext)
    | worker w a =>
      obtain ⟨hpc, -, -, hslot, -⟩ := workerStep_frame hnext
      unfold State.Paced
      rw [Timed.after_state, Timed.after_time, Timed.after_worker_due, hpc, hslot]
      exact hpaced

end Loadgen
end ObservabilityStack
