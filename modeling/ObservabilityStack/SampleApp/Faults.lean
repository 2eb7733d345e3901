import Mathlib.Algebra.Order.Field.Rat
import Mathlib.Tactic.Linarith
import ObservabilityStack.Lib.Register

/-!
# `app/faults.py`: deliberate fault injection

`FaultInjector` holds at most one latency fault and one error fault, each with the time it
expires at. Arguments and clock readings are rationals; a method takes what the clock shows and
what the generator draws as arguments.

A fault is built by an injection that has validated its arguments, and by nothing else, so its
bounds are part of its type. They are what keeps a draw from ever being negative.

What the injector means is said over its whole history of calls (`LastInjected`): a fault is in
force when the last call that touched its kind was the injection that made it and its time is not
up.

There is no timer. A fault that has expired stays in its field, and every call that looks at it
compares the time. From outside the fault ends at a moment, and that it does is what the reference
semantics says.

A method touches the fields once, under the lock. What it does before, to check its arguments and
to read the clock, depends on nothing that is shared, so a history is a list of calls and not an
interleaving of their parts.
-/

set_option autoImplicit false

namespace ObservabilityStack
namespace SampleApp

/-- `MAX_TTL_SECONDS`, an hour. -/
def maxTtlSeconds : ℕ := 3600

/-- `MAX_LATENCY_MS`. -/
def maxLatencyMs : ℕ := 10000

/-- `LatencyFault`. Only `inject_latency` builds one, and its checks are the fields. -/
structure LatencyFault where
  delayMs : ℚ
  jitterMs : ℚ
  expiresAt : ℚ
  jitter_nonneg : 0 ≤ jitterMs
  jitter_le : jitterMs ≤ delayMs
  delay_le : delayMs ≤ maxLatencyMs
  deriving DecidableEq

/-- `ErrorFault`. Only `inject_errors` builds one, and its checks are the fields. -/
structure ErrorFault where
  ratio : ℚ
  statusCode : ℚ
  expiresAt : ℚ
  ratio_nonneg : 0 ≤ ratio
  ratio_le : ratio ≤ 1
  status_ge : 500 ≤ statusCode
  status_le : statusCode ≤ 599
  deriving DecidableEq

/-- `FaultState`: the faults that have not expired. -/
structure FaultState where
  latency : Option LatencyFault
  errors : Option ErrorFault
  deriving DecidableEq

/-- What the injector holds, expired or not. An expired fault stays there until it is replaced or
    cleared, and `state` leaves it out. -/
structure FaultInjector where
  latency : Option LatencyFault
  errors : Option ErrorFault
  deriving DecidableEq

namespace FaultInjector

def init : FaultInjector := ⟨none, none⟩

/-- `inject_latency`. -/
def injectLatency (s : FaultInjector) (now delayMs jitterMs ttlSeconds : ℚ) :
    Except String (LatencyFault × FaultInjector) :=
  if hd : delayMs < 0 ∨ delayMs > maxLatencyMs then
    .error s!"delay_ms must be within [0, {maxLatencyMs}]"
  else if hj : jitterMs < 0 ∨ jitterMs > delayMs then
    .error "jitter_ms must be within [0, delay_ms]"
  else if ttlSeconds ≤ 0 ∨ ttlSeconds > maxTtlSeconds then
    .error s!"ttl_seconds must be within (0, {maxTtlSeconds}]"
  else
    let fault : LatencyFault :=
      ⟨delayMs, jitterMs, now + ttlSeconds, not_lt.mp fun h => hj (Or.inl h),
        not_lt.mp fun h => hj (Or.inr h), not_lt.mp fun h => hd (Or.inr h)⟩
    .ok (fault, { s with latency := some fault })

/-- `inject_errors`. -/
def injectErrors (s : FaultInjector) (now ratio statusCode ttlSeconds : ℚ) :
    Except String (ErrorFault × FaultInjector) :=
  if hr : 0 ≤ ratio ∧ ratio ≤ 1 then
    if hs : 500 ≤ statusCode ∧ statusCode ≤ 599 then
      if ttlSeconds ≤ 0 ∨ ttlSeconds > maxTtlSeconds then
        .error s!"ttl_seconds must be within (0, {maxTtlSeconds}]"
      else
        let fault : ErrorFault :=
          ⟨ratio, statusCode, now + ttlSeconds, hr.1, hr.2, hs.1, hs.2⟩
        .ok (fault, { s with errors := some fault })
    else .error "status_code must be a 5xx code"
  else .error "ratio must be within [0, 1]"

/-- `clear`. -/
def clear (_ : FaultInjector) : FaultInjector := ⟨none, none⟩

/-- `state`: a fault is over at the very time it expires. -/
def state (s : FaultInjector) (now : ℚ) : FaultState where
  latency := s.latency.filter fun fault => fault.expiresAt > now
  errors := s.errors.filter fun fault => fault.expiresAt > now

/-- `rng.uniform(low, high)`, for a draw `u` between 0 and 1. -/
def uniform (low high u : ℚ) : ℚ := low + (high - low) * u

/-- `next_delay_seconds`. -/
def nextDelaySeconds (s : FaultInjector) (now u : ℚ) : ℚ :=
  match (s.state now).latency with
  | none => 0
  | some latency =>
      if latency.jitterMs = 0 then latency.delayMs / 1000
      else
        uniform (latency.delayMs - latency.jitterMs) (latency.delayMs + latency.jitterMs) u / 1000

/-- `next_error_status`, where `u` is `rng.random()`. -/
def nextErrorStatus (s : FaultInjector) (now u : ℚ) : Option ℚ :=
  match (s.state now).errors with
  | none => none
  | some errors => if u < errors.ratio then some errors.statusCode else none

end FaultInjector

/-! ## Histories

A call with the clock's reading. The readings of a history need not increase, and nothing is
assumed about them; what is asked of a moment is a comparison with an expiry. -/

inductive Call
  | injectLatency (delayMs jitterMs ttlSeconds : ℚ)
  | injectErrors (ratio statusCode ttlSeconds : ℚ)
  | clear
  | state
  | nextDelaySeconds (u : ℚ)
  | nextErrorStatus (u : ℚ)
  deriving DecidableEq

/-- A call, and what the clock shows when it is made. -/
structure Event where
  now : ℚ
  call : Call
  deriving DecidableEq

/-- What a call leaves behind. One that raises, and one that only reads, changes nothing. -/
def FaultInjector.apply (s : FaultInjector) (e : Event) : FaultInjector :=
  match e.call with
  | .injectLatency delayMs jitterMs ttlSeconds =>
      match s.injectLatency e.now delayMs jitterMs ttlSeconds with
      | .ok (_, s') => s'
      | .error _ => s
  | .injectErrors ratio statusCode ttlSeconds =>
      match s.injectErrors e.now ratio statusCode ttlSeconds with
      | .ok (_, s') => s'
      | .error _ => s
  | .clear => s.clear
  | .state | .nextDelaySeconds _ | .nextErrorStatus _ => s

def FaultInjector.run (history : List Event) : FaultInjector :=
  history.foldl FaultInjector.apply .init

/-! ## The reference semantics

Of a history, and of one kind of fault in it: the last call of that kind decides. -/

def AcceptsLatency (delayMs jitterMs ttlSeconds : ℚ) : Prop :=
  0 ≤ jitterMs ∧ jitterMs ≤ delayMs ∧ delayMs ≤ maxLatencyMs ∧
    0 < ttlSeconds ∧ ttlSeconds ≤ maxTtlSeconds

def AcceptsErrors (ratio statusCode ttlSeconds : ℚ) : Prop :=
  0 ≤ ratio ∧ ratio ≤ 1 ∧ 500 ≤ statusCode ∧ statusCode ≤ 599 ∧
    0 < ttlSeconds ∧ ttlSeconds ≤ maxTtlSeconds

/-- The event is an accepted latency injection, and `fault` what it stores. -/
def Event.InjectsLatency (e : Event) (fault : LatencyFault) : Prop :=
  ∃ ttlSeconds, e.call = .injectLatency fault.delayMs fault.jitterMs ttlSeconds ∧
    AcceptsLatency fault.delayMs fault.jitterMs ttlSeconds ∧
    fault.expiresAt = e.now + ttlSeconds

def Event.InjectsErrors (e : Event) (fault : ErrorFault) : Prop :=
  ∃ ttlSeconds, e.call = .injectErrors fault.ratio fault.statusCode ttlSeconds ∧
    AcceptsErrors fault.ratio fault.statusCode ttlSeconds ∧
    fault.expiresAt = e.now + ttlSeconds

/-- `fault` was injected, and after that there was neither a clear nor another accepted
    injection of its kind, `injects` telling which those are. -/
def LastInjected {α : Type} (injects : Event → α → Prop) (history : List Event) (fault : α) :
    Prop :=
  ∃ before e after, history = before ++ e :: after ∧ injects e fault ∧
    ∀ e' ∈ after, e'.call ≠ .clear ∧ ∀ fault', ¬ injects e' fault'

namespace FaultInjector

/-- The two ways `inject_latency` ends. -/
theorem injectLatency_cases (s : FaultInjector) (now delayMs jitterMs ttlSeconds : ℚ) :
    (AcceptsLatency delayMs jitterMs ttlSeconds ∧ ∃ fault : LatencyFault,
      fault.delayMs = delayMs ∧ fault.jitterMs = jitterMs ∧
      fault.expiresAt = now + ttlSeconds ∧
      s.injectLatency now delayMs jitterMs ttlSeconds =
        .ok (fault, { s with latency := some fault })) ∨
    (¬ AcceptsLatency delayMs jitterMs ttlSeconds ∧
      ∃ message, s.injectLatency now delayMs jitterMs ttlSeconds = .error message) := by
  unfold injectLatency AcceptsLatency
  split
  -- Delay, jitter and time to live are checked in this order, and each message ends the call.
  · rename_i hd
    refine Or.inr ⟨?_, _, rfl⟩
    rintro ⟨hj, hjd, hdm, -⟩
    rcases hd with hd | hd
    · exact absurd (hj.trans hjd) (not_le.mpr hd)
    · exact absurd hdm (not_le.mpr hd)
  · rename_i hd
    split
    · rename_i hj
      refine Or.inr ⟨?_, _, rfl⟩
      rintro ⟨hj0, hjd, -⟩
      rcases hj with hj | hj
      · exact absurd hj0 (not_le.mpr hj)
      · exact absurd hjd (not_le.mpr hj)
    · rename_i hj
      push Not at hd hj
      split
      · rename_i ht
        refine Or.inr ⟨?_, _, rfl⟩
        rintro ⟨-, -, -, ht0, htm⟩
        rcases ht with ht | ht
        · exact absurd ht0 (not_lt.mpr ht)
        · exact absurd htm (not_le.mpr ht)
      · rename_i ht
        push Not at ht
        exact Or.inl ⟨⟨hj.1, hj.2, hd.2, ht⟩, _, rfl, rfl, rfl, rfl⟩

/-- The two ways `inject_errors` ends. -/
theorem injectErrors_cases (s : FaultInjector) (now ratio statusCode ttlSeconds : ℚ) :
    (AcceptsErrors ratio statusCode ttlSeconds ∧ ∃ fault : ErrorFault,
      fault.ratio = ratio ∧ fault.statusCode = statusCode ∧
      fault.expiresAt = now + ttlSeconds ∧
      s.injectErrors now ratio statusCode ttlSeconds =
        .ok (fault, { s with errors := some fault })) ∨
    (¬ AcceptsErrors ratio statusCode ttlSeconds ∧
      ∃ message, s.injectErrors now ratio statusCode ttlSeconds = .error message) := by
  unfold injectErrors AcceptsErrors
  split
  · rename_i hr
    split
    · rename_i hs
      split
      · rename_i ht
        refine Or.inr ⟨?_, _, rfl⟩
        rintro ⟨-, -, -, -, ht0, htm⟩
        rcases ht with ht | ht
        · exact absurd ht0 (not_lt.mpr ht)
        · exact absurd htm (not_le.mpr ht)
      · rename_i ht
        push Not at ht
        exact Or.inl ⟨⟨hr.1, hr.2, hs.1, hs.2, ht⟩, _, rfl, rfl, rfl, rfl⟩
    · rename_i hs
      exact Or.inr ⟨fun h => hs ⟨h.2.2.1, h.2.2.2.1⟩, _, rfl⟩
  · rename_i hr
    exact Or.inr ⟨fun h => hr ⟨h.1, h.2.1⟩, _, rfl⟩

/-- An injection is accepted exactly when its arguments are in range. -/
theorem injectLatency_ok_iff {s : FaultInjector} {now delayMs jitterMs ttlSeconds : ℚ} :
    (∃ r, s.injectLatency now delayMs jitterMs ttlSeconds = .ok r) ↔
      AcceptsLatency delayMs jitterMs ttlSeconds := by
  rcases injectLatency_cases s now delayMs jitterMs ttlSeconds with
    ⟨hacc, fault, -, -, -, hok⟩ | ⟨hno, message, herr⟩
  · exact iff_of_true ⟨_, hok⟩ hacc
  · refine iff_of_false ?_ hno
    intro ⟨r, hr⟩
    cases herr.symm.trans hr

theorem injectErrors_ok_iff {s : FaultInjector} {now ratio statusCode ttlSeconds : ℚ} :
    (∃ r, s.injectErrors now ratio statusCode ttlSeconds = .ok r) ↔
      AcceptsErrors ratio statusCode ttlSeconds := by
  rcases injectErrors_cases s now ratio statusCode ttlSeconds with
    ⟨hacc, fault, -, -, -, hok⟩ | ⟨hno, message, herr⟩
  · exact iff_of_true ⟨_, hok⟩ hacc
  · refine iff_of_false ?_ hno
    intro ⟨r, hr⟩
    cases herr.symm.trans hr

/-! ## Each kind of fault is a register

An injection writes, `clear` erases, and reading changes nothing that can be seen. This is proved
once for a register with an expiry, and used for latency and for errors. -/

/-- The latency fault an event stores. -/
def latencyWrite (e : Event) : Option LatencyFault :=
  match e.call with
  | .injectLatency delayMs jitterMs ttlSeconds =>
      (init.injectLatency e.now delayMs jitterMs ttlSeconds).toOption.map Prod.fst
  | _ => none

def errorsWrite (e : Event) : Option ErrorFault :=
  match e.call with
  | .injectErrors ratio statusCode ttlSeconds =>
      (init.injectErrors e.now ratio statusCode ttlSeconds).toOption.map Prod.fst
  | _ => none

def isClear (e : Event) : Bool := e.call = .clear

theorem latencyWrite_eq_some {e : Event} {fault : LatencyFault} :
    latencyWrite e = some fault ↔ e.InjectsLatency fault := by
  obtain ⟨now, call⟩ := e
  constructor
  · intro h
    cases call with
    | injectLatency delayMs jitterMs ttlSeconds =>
      unfold latencyWrite at h
      dsimp only at h
      rcases injectLatency_cases init now delayMs jitterMs ttlSeconds with
        ⟨hacc, fault', rfl, rfl, hexp, hok⟩ | ⟨-, message, herr⟩
      · rw [hok] at h
        cases h
        exact ⟨ttlSeconds, rfl, hacc, hexp⟩
      · rw [herr] at h
        cases h
    | injectErrors => cases h
    | clear => cases h
    | state => cases h
    | nextDelaySeconds => cases h
    | nextErrorStatus => cases h
  · rintro ⟨ttlSeconds, hcall, hacc, hexp⟩
    cases hcall
    unfold latencyWrite
    dsimp only
    rcases injectLatency_cases init now fault.delayMs fault.jitterMs ttlSeconds with
      ⟨-, fault', hd, hj, he, hok⟩ | ⟨hno, -⟩
    · rw [hok]
      -- Two faults with the same three values are equal: their bounds are proofs.
      obtain ⟨d, j, x, _, _, _⟩ := fault
      obtain ⟨d', j', x', _, _, _⟩ := fault'
      cases hd
      cases hj
      cases he.trans hexp.symm
      rfl
    · exact absurd hacc hno

theorem errorsWrite_eq_some {e : Event} {fault : ErrorFault} :
    errorsWrite e = some fault ↔ e.InjectsErrors fault := by
  obtain ⟨now, call⟩ := e
  constructor
  · intro h
    cases call with
    | injectErrors ratio statusCode ttlSeconds =>
      unfold errorsWrite at h
      dsimp only at h
      rcases injectErrors_cases init now ratio statusCode ttlSeconds with
        ⟨hacc, fault', rfl, rfl, hexp, hok⟩ | ⟨-, message, herr⟩
      · rw [hok] at h
        cases h
        exact ⟨ttlSeconds, rfl, hacc, hexp⟩
      · rw [herr] at h
        cases h
    | injectLatency => cases h
    | clear => cases h
    | state => cases h
    | nextDelaySeconds => cases h
    | nextErrorStatus => cases h
  · rintro ⟨ttlSeconds, hcall, hacc, hexp⟩
    cases hcall
    unfold errorsWrite
    dsimp only
    rcases injectErrors_cases init now fault.ratio fault.statusCode ttlSeconds with
      ⟨-, fault', hr, hs, he, hok⟩ | ⟨hno, -⟩
    · rw [hok]
      -- The two faults have equal fields, and the proofs they carry cannot differ.
      obtain ⟨r, c, x, _, _, _, _⟩ := fault
      obtain ⟨r', c', x', _, _, _, _⟩ := fault'
      cases hr
      cases hs
      cases he.trans hexp.symm
      rfl
    · exact absurd hacc hno

theorem injectLatency_frame (s : FaultInjector) (now delayMs jitterMs ttlSeconds : ℚ) :
    s.injectLatency now delayMs jitterMs ttlSeconds =
      (init.injectLatency now delayMs jitterMs ttlSeconds).map
        fun r => (r.1, { s with latency := some r.1 }) := by
  unfold injectLatency
  split
  · rfl
  · split
    · rfl
    · split
      · rfl
      · rfl

theorem injectErrors_frame (s : FaultInjector) (now ratio statusCode ttlSeconds : ℚ) :
    s.injectErrors now ratio statusCode ttlSeconds =
      (init.injectErrors now ratio statusCode ttlSeconds).map
        fun r => (r.1, { s with errors := some r.1 }) := by
  unfold injectErrors
  split
  · split
    · split
      · rfl
      · rfl
    · rfl
  · rfl

/-- A call acts on the two stored faults independently. -/
theorem apply_eq (s : FaultInjector) (e : Event) :
    s.apply e = ⟨Register.update latencyWrite isClear s.latency e,
      Register.update errorsWrite isClear s.errors e⟩ := by
  obtain ⟨now, call⟩ := e
  cases call with
  | injectLatency delayMs jitterMs ttlSeconds =>
    unfold apply Register.update latencyWrite
    dsimp only
    rw [injectLatency_frame]
    cases init.injectLatency now delayMs jitterMs ttlSeconds with
    | error message => rfl
    | ok r => rfl
  | injectErrors ratio statusCode ttlSeconds =>
    unfold apply Register.update errorsWrite
    dsimp only
    rw [injectErrors_frame]
    cases init.injectErrors now ratio statusCode ttlSeconds with
    | error message => rfl
    | ok r => rfl
  | clear => rfl
  | state => rfl
  | nextDelaySeconds => rfl
  | nextErrorStatus => rfl

/-- A call that is refused, and one that only reads, leaves both stored faults unchanged. -/
theorem apply_silent (s : FaultInjector) {e : Event} (hclear : e.call ≠ .clear)
    (hlatency : ∀ fault, ¬ e.InjectsLatency fault) (herrors : ∀ fault, ¬ e.InjectsErrors fault) :
    s.apply e = s := by
  have hnone : ∀ {α : Type} {write : Event → Option α} (r : Option α), write e = none →
      Register.update write isClear r e = r := by
    intro α write r hw
    unfold Register.update isClear
    rw [hw, if_neg (by simpa using hclear)]
  rw [apply_eq, hnone, hnone]
  · exact Option.eq_none_iff_forall_ne_some.mpr
      fun fault hw => herrors fault (errorsWrite_eq_some.mp hw)
  · exact Option.eq_none_iff_forall_ne_some.mpr
      fun fault hw => hlatency fault (latencyWrite_eq_some.mp hw)

theorem run_eq (history : List Event) :
    run history = ⟨history.foldl (Register.update latencyWrite isClear) none,
      history.foldl (Register.update errorsWrite isClear) none⟩ := by
  induction history using List.reverseRecOn with
  | nil => rfl
  | append_singleton history e ih =>
    unfold run at ih ⊢
    rw [List.foldl_append, List.foldl_append, List.foldl_append, ih]
    exact apply_eq _ e

/-- What a register of the injector shows is what was last injected. -/
theorem lastWritten_iff {α : Type} {write : Event → Option α} {injects : Event → α → Prop}
    (hwrite : ∀ e fault, write e = some fault ↔ injects e fault)
    (hcall : ∀ e fault, injects e fault → e.call ≠ .clear) (history : List Event) (fault : α) :
    Register.LastWritten write isClear history fault ↔ LastInjected injects history fault := by
  have hsilent : ∀ e, isClear e = false ∧ write e = none ↔
      e.call ≠ .clear ∧ ∀ fault', ¬ injects e fault' := by
    intro e
    unfold isClear
    rw [decide_eq_false_iff_not, Option.eq_none_iff_forall_ne_some]
    exact and_congr_right fun _ => forall_congr' fun fault' => not_congr (hwrite e fault')
  constructor
  · rintro ⟨before, e, after, hxs, -, hw, hafter⟩
    exact ⟨before, e, after, hxs, (hwrite e fault).mp hw,
      fun e' he' => (hsilent e').mp (hafter e' he')⟩
  · rintro ⟨before, e, after, hxs, hinj, hafter⟩
    exact ⟨before, e, after, hxs, decide_eq_false (hcall e fault hinj), (hwrite e fault).mpr hinj,
      fun e' he' => (hsilent e').mpr (hafter e' he')⟩

theorem latency_run (history : List Event) (fault : LatencyFault) :
    (run history).latency = some fault ↔
      LastInjected Event.InjectsLatency history fault := by
  rw [run_eq]
  show history.foldl (Register.update latencyWrite isClear) none = some fault ↔ _
  rw [Register.foldl_update, lastWritten_iff fun _ _ => latencyWrite_eq_some]
  rintro e fault ⟨ttlSeconds, hcall, -⟩ hclear
  cases hcall.symm.trans hclear

theorem errors_run (history : List Event) (fault : ErrorFault) :
    (run history).errors = some fault ↔ LastInjected Event.InjectsErrors history fault := by
  rw [run_eq]
  show history.foldl (Register.update errorsWrite isClear) none = some fault ↔ _
  rw [Register.foldl_update, lastWritten_iff fun _ _ => errorsWrite_eq_some]
  rintro e fault ⟨ttlSeconds, hcall, -⟩ hclear
  cases hcall.symm.trans hclear

/-- A read shows the latency fault that was last injected, until its time is up. -/
theorem state_latency_run {history : List Event} {t : ℚ} {fault : LatencyFault} :
    ((run history).state t).latency = some fault ↔
      LastInjected Event.InjectsLatency history fault ∧ t < fault.expiresAt := by
  show (run history).latency.filter _ = some fault ↔ _
  rw [Option.filter_eq_some_iff, latency_run]
  exact and_congr_right fun _ => decide_eq_true_iff

theorem state_errors_run {history : List Event} {t : ℚ} {fault : ErrorFault} :
    ((run history).state t).errors = some fault ↔
      LastInjected Event.InjectsErrors history fault ∧ t < fault.expiresAt := by
  show (run history).errors.filter _ = some fault ↔ _
  rw [Option.filter_eq_some_iff, errors_run]
  exact and_congr_right fun _ => decide_eq_true_iff

/-! ## The draws

A draw is a function of the fault in force and of what the generator returns. -/

theorem uniform_mem {low high u : ℚ} (hlh : low ≤ high) (h0 : 0 ≤ u) (h1 : u ≤ 1) :
    low ≤ uniform low high u ∧ uniform low high u ≤ high := by
  have hwidth : 0 ≤ high - low := sub_nonneg.mpr hlh
  have hlow : 0 ≤ (high - low) * u := mul_nonneg hwidth h0
  have hhigh : (high - low) * u ≤ high - low := mul_le_of_le_one_right hwidth h1
  unfold uniform
  constructor
  · linarith
  · linarith

/-- A delay that is drawn lies in the band of the fault in force. -/
theorem nextDelaySeconds_mem {s : FaultInjector} {now u : ℚ} {fault : LatencyFault}
    (hfault : (s.state now).latency = some fault) (h0 : 0 ≤ u) (h1 : u ≤ 1) :
    (fault.delayMs - fault.jitterMs) / 1000 ≤ s.nextDelaySeconds now u ∧
      s.nextDelaySeconds now u ≤ (fault.delayMs + fault.jitterMs) / 1000 := by
  have hj := fault.jitter_nonneg
  unfold nextDelaySeconds
  rw [hfault]
  dsimp only
  split
  · rename_i hzero
    rw [hzero]
    constructor
    · linarith
    · linarith
  · obtain ⟨hlow, hhigh⟩ := uniform_mem
      (show fault.delayMs - fault.jitterMs ≤ fault.delayMs + fault.jitterMs by linarith) h0 h1
    constructor
    · linarith
    · linarith

theorem nextErrorStatus_eq_some {s : FaultInjector} {now u status : ℚ} :
    s.nextErrorStatus now u = some status ↔
      ∃ fault, (s.state now).errors = some fault ∧ u < fault.ratio ∧
        status = fault.statusCode := by
  unfold nextErrorStatus
  constructor
  · intro h
    split at h
    · cases h
    · rename_i fault hfault
      split at h
      · rename_i hlt
        cases h
        exact ⟨fault, hfault, hlt, rfl⟩
      · cases h
  · rintro ⟨fault, hfault, hlt, rfl⟩
    rw [hfault]
    exact if_pos hlt

/-- The comparison is strict, and `random()` is never below 0 and never 1. -/
theorem nextErrorStatus_extremes {s : FaultInjector} {now u : ℚ} {fault : ErrorFault}
    (hfault : (s.state now).errors = some fault) (h0 : 0 ≤ u) (h1 : u < 1) :
    (fault.ratio = 0 → s.nextErrorStatus now u = none) ∧
      (fault.ratio = 1 → s.nextErrorStatus now u = some fault.statusCode) := by
  constructor
  · intro hzero
    rw [Option.eq_none_iff_forall_ne_some]
    intro status hstatus
    obtain ⟨fault', hfault', hlt, -⟩ := nextErrorStatus_eq_some.mp hstatus
    cases hfault.symm.trans hfault'
    rw [hzero] at hlt
    exact absurd h0 (not_le.mpr hlt)
  · intro hone
    exact nextErrorStatus_eq_some.mpr ⟨fault, hfault, by rwa [hone], rfl⟩

/-! ## The injector over a whole history

The object, call by call, against the semantics of its history. -/

/-- **`FaultInjector` equals its reference semantics.** -/
theorem injector_refines_history (history : List Event) :
    let s := run history
    (∀ now delayMs jitterMs ttlSeconds,
      (∃ r, s.injectLatency now delayMs jitterMs ttlSeconds = .ok r) ↔
        AcceptsLatency delayMs jitterMs ttlSeconds) ∧
    (∀ now ratio statusCode ttlSeconds,
      (∃ r, s.injectErrors now ratio statusCode ttlSeconds = .ok r) ↔
        AcceptsErrors ratio statusCode ttlSeconds) ∧
    (∀ e : Event, e.call ≠ .clear → (∀ fault, ¬ e.InjectsLatency fault) →
      (∀ fault, ¬ e.InjectsErrors fault) → s.apply e = s) ∧
    (∀ t fault, (s.state t).latency = some fault ↔
      LastInjected Event.InjectsLatency history fault ∧ t < fault.expiresAt) ∧
    (∀ t fault, (s.state t).errors = some fault ↔
      LastInjected Event.InjectsErrors history fault ∧ t < fault.expiresAt) ∧
    (∀ t u, 0 ≤ u → u ≤ 1 →
      ((s.state t).latency = none → s.nextDelaySeconds t u = 0) ∧
      ∀ fault, (s.state t).latency = some fault →
        0 ≤ s.nextDelaySeconds t u ∧
        (fault.delayMs - fault.jitterMs) / 1000 ≤ s.nextDelaySeconds t u ∧
        s.nextDelaySeconds t u ≤ (fault.delayMs + fault.jitterMs) / 1000) ∧
    (∀ t u, 0 ≤ u → u < 1 →
      (∀ status, s.nextErrorStatus t u = some status ↔
        ∃ fault, (s.state t).errors = some fault ∧ u < fault.ratio ∧
          status = fault.statusCode) ∧
      ∀ fault, (s.state t).errors = some fault →
        (fault.ratio = 0 → s.nextErrorStatus t u = none) ∧
        (fault.ratio = 1 → s.nextErrorStatus t u = some fault.statusCode)) := by
  intro s
  refine ⟨?_, ?_, ?_, ?_, ?_, ?_, ?_⟩
  · intro now delayMs jitterMs ttlSeconds
    exact injectLatency_ok_iff
  · intro now ratio statusCode ttlSeconds
    exact injectErrors_ok_iff
  · intro e hclear hlatency herrors
    exact apply_silent s hclear hlatency herrors
  · intro t fault
    exact state_latency_run
  · intro t fault
    exact state_errors_run
  · intro t u h0 h1
    constructor
    · intro hnone
      unfold nextDelaySeconds
      rw [hnone]
    · intro fault hfault
      obtain ⟨hlow, hhigh⟩ := nextDelaySeconds_mem hfault h0 h1
      refine ⟨le_trans ?_ hlow, hlow, hhigh⟩
      -- The jitter never exceeds the delay, so the lower end of the band is not negative.
      have hj := fault.jitter_le
      linarith
  · intro t u h0 h1
    refine ⟨fun status => nextErrorStatus_eq_some, ?_⟩
    intro fault hfault
    exact nextErrorStatus_extremes hfault h0 h1

end FaultInjector

end SampleApp
end ObservabilityStack
