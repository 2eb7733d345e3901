import ObservabilityStack.Loadgen.Conservation
import Mathlib.Tactic.IntervalCases

/-!
# Requests without a response

There are two ways for a request to end without a response. When `urlopen` raises an `OSError`,
`UrllibTransport.send` answers 599. The statistics keep a status as its class, `599 // 100` is 5
like every server error, and `sent` counts the request: it looks like a server error. When
`urlopen` raises something else (an `HTTPException` such as `BadStatusLine`), so does `send`, and
`_send_one` never comes to record anything: it looks like no request at all. A response that
breaks off in its body ends the same way, and is counted among those here.

So the counts of a run never determine how many of its requests had no response, and among the
requests that were recorded they do only when there was no server error and no failure. `main`,
which asks whether `sent` is 0, notices a target that answers nothing when every request went the
second way, and takes a target that refuses every connection for one that answers.

What the statistics hold is followed through a whole run of the driver (`Recorded`), so that the
half about the exit code is about runs, and not about a list of requests that some run may have
sent.
-/

set_option autoImplicit false

namespace ObservabilityStack
namespace Loadgen

open Transition

/-! ## `UrllibTransport.send`

An `HTTPError` is a response, and an `OSError` is recorded as 599. Everything else is raised. -/

def transportFailureStatus : ℤ := 599

/-- The statuses of HTTP, from 1xx to 5xx. -/
structure HttpStatus where
  code : ℕ
  le_code : 100 ≤ code
  code_le : code ≤ 599
  deriving DecidableEq

/-- How the exchange with the service ends. -/
inductive Outcome
  /-- `urlopen` returns, and the body is read. -/
  | response (status : HttpStatus)
  /-- `urlopen` raises `HTTPError`, and the body is read. -/
  | httpError (status : HttpStatus)
  /-- `URLError`, `TimeoutError` or another `OSError`. -/
  | failed (reason : String)
  deriving DecidableEq

/-- The status the service answered with, if it did. -/
def Outcome.status : Outcome → Option HttpStatus
  | .response status | .httpError status => some status
  | .failed _ => none

/-- What `send` returns for it. -/
def Outcome.code : Outcome → ℤ
  | .response status | .httpError status => status.code
  | .failed _ => transportFailureStatus

/-- `send`; an exception that no clause of it catches is the error. -/
def UrllibTransport.send : Except String Outcome → SendResult
  | .ok outcome => .status outcome.code
  | .error exc => .raised exc

/-- The service answered. -/
def responded : Except String Outcome → Bool
  | .ok outcome => outcome.status.isSome
  | .error _ => false

/-! ## What the statistics tell

`sendOne` is what one request leaves in the statistics, and `recorded` what a list of them does.
The two questions are which counts can come from different lists, and when the list decides. -/

/-- `_send_one`, for an exchange and the time it takes. When `send` raises, so does `_send_one`,
    before it records anything; the worker logs the exception and goes on. -/
def sendOne (s : Stats) (x : Except String Outcome × ℚ) : Stats :=
  match UrllibTransport.send x.1 with
  | .status code => s.record code x.2
  | .raised _ => s

/-- The statistics of a sequence of requests. -/
def recorded (xs : List (Except String Outcome × ℚ)) : Stats := xs.foldl sendOne .init

/-- The requests without a response. -/
def failures (xs : List (Except String Outcome × ℚ)) : ℕ := xs.countP fun x => !responded x.1

/-- The same `sent`, and equal dictionaries `by_class`. -/
def SameCounts (s s' : Stats) : Prop :=
  s.sent = s'.sent ∧ ∀ class_, s.byClass.get? class_ = s'.byClass.get? class_

/-- Among the sequences of these exchanges, the counts of `xs` determine how many of its requests
    had no response. -/
def DeterminedAmong (p : Except String Outcome → Prop) (xs : List (Except String Outcome × ℚ)) :
    Prop :=
  ∀ ys, (∀ y ∈ ys, p y.1) → SameCounts (recorded xs) (recorded ys) → failures xs = failures ys

/-- Among all sequences. -/
def Determined (xs : List (Except String Outcome × ℚ)) : Prop :=
  DeterminedAmong (fun _ => True) xs

/-- `send` returns. -/
def Returns (exchange : Except String Outcome) : Prop := ∃ outcome, exchange = .ok outcome

/-- The service answered with a status below 500. -/
def AnsweredBelow500 (exchange : Except String Outcome) : Prop :=
  ∃ outcome status, exchange = .ok outcome ∧ outcome.status = some status ∧ status.code < 500

/-- The request is counted as a server error. -/
def Outcome.countsAs5xx (o : Outcome) : Bool := Stats.bucket o.code = "5xx"

theorem bucket_eq_5xx_iff (status : HttpStatus) :
    Stats.bucket status.code = "5xx" ↔ 500 ≤ status.code := by
  obtain ⟨code, hle, hge⟩ := status
  obtain ⟨n, hn⟩ : ∃ n, code / 100 = n := ⟨_, rfl⟩
  have hcast : (code : ℤ) / 100 = n := by omega
  have h1 : 1 ≤ n := by omega
  have h5 : n ≤ 5 := by omega
  show s!"{(code : ℤ) / 100}xx" = "5xx" ↔ 500 ≤ code
  rw [hcast]
  interval_cases n
  · exact iff_of_false (by decide) (by omega)
  · exact iff_of_false (by decide) (by omega)
  · exact iff_of_false (by decide) (by omega)
  · exact iff_of_false (by decide) (by omega)
  · exact iff_of_true (by decide) (by omega)

/-- A failure and every server error are. -/
theorem countsAs5xx_iff (o : Outcome) :
    o.countsAs5xx = true ↔ ∀ status, o.status = some status → 500 ≤ status.code := by
  unfold Outcome.countsAs5xx
  rw [decide_eq_true_iff]
  cases o with
  | response status | httpError status =>
    have hbucket := bucket_eq_5xx_iff status
    simpa [Outcome.status, Outcome.code] using hbucket
  | failed reason =>
    have hbucket : Stats.bucket transportFailureStatus = "5xx" := by decide
    exact iff_of_true hbucket (by simp [Outcome.status])

/-- The exchange adds one to the count of server errors. -/
def countsAs5xx : Except String Outcome → Bool
  | .ok outcome => outcome.countsAs5xx
  | .error _ => false

theorem byClass_recorded (xs : List (Except String Outcome × ℚ)) :
    (recorded xs).byClass.getD "5xx" 0 = xs.countP fun x => countsAs5xx x.1 := by
  induction xs using List.reverseRecOn with
  | nil => rfl
  | append_singleton xs x ih =>
    unfold recorded at ih ⊢
    rw [List.foldl_append, List.countP_append, ← ih]
    obtain ⟨exchange, seconds⟩ := x
    cases exchange with
    | error exc => simp [sendOne, UrllibTransport.send, countsAs5xx]
    | ok outcome =>
      show (Stats.record _ outcome.code seconds).byClass.getD "5xx" 0 = _
      rw [Stats.getD_byClass_record, List.countP_singleton]
      simp only [countsAs5xx, Outcome.countsAs5xx, decide_eq_true_eq]

/-- One more request whose `send` raises leaves the statistics as they were. -/
theorem recorded_raising (xs : List (Except String Outcome × ℚ)) (exc : String) (seconds : ℚ) :
    recorded (xs ++ [(.error exc, seconds)]) = recorded xs := by
  unfold recorded
  rw [List.foldl_append]
  rfl

/-- **Nothing determines them**: a request whose `send` raises is one more without a response. -/
theorem not_determined (xs : List (Except String Outcome × ℚ)) : ¬ Determined xs := by
  intro h
  have hraised := recorded_raising xs "BadStatusLine" 1
  have hcount := h (xs ++ [(.error "BadStatusLine", 1)]) (fun _ _ => trivial)
    ⟨by rw [hraised], fun _ => by rw [hraised]⟩
  simp [failures, responded] at hcount

/-! Among the requests whose `send` returns, some sequences are told apart. -/

/-- Statuses of one class are recorded in the same way. -/
theorem sendOne_congr (s : Stats) {o o' : Outcome} (t : ℚ) (h : o.countsAs5xx = true)
    (h' : o'.countsAs5xx = true) : sendOne s (.ok o, t) = sendOne s (.ok o', t) := by
  have hb : Stats.bucket o.code = Stats.bucket o'.code :=
    (of_decide_eq_true h).trans (of_decide_eq_true h').symm
  simp only [sendOne, UrllibTransport.send, Stats.record, hb]

/-- The other explanation of a 5xx: a failure for a status, and 503 for a failure. -/
def Outcome.other (o : Outcome) : Outcome :=
  if o.status.isNone then .httpError ⟨503, by decide, by decide⟩ else .failed "timed out"

theorem countsAs5xx_other (o : Outcome) : o.other.countsAs5xx = true := by
  unfold Outcome.other
  split
  · decide
  · decide

theorem responded_other (o : Outcome) : responded (.ok o.other) = !responded (.ok o) := by
  unfold Outcome.other
  cases o <;> rfl

/-- Requests of which one counts as a server error have a double with the same statistics. -/
theorem not_determinedAmong {xs : List (Except String Outcome × ℚ)} {o : Outcome} {t : ℚ}
    (hreturns : ∀ x ∈ xs, Returns x.1) (hx : (.ok o, t) ∈ xs) (h5xx : o.countsAs5xx = true) :
    ¬ DeterminedAmong Returns xs := by
  obtain ⟨before, after, rfl⟩ := List.append_of_mem hx
  intro h
  have hsame : recorded (before ++ (.ok o, t) :: after) =
      recorded (before ++ (.ok o.other, t) :: after) := by
    unfold recorded
    rw [List.foldl_append, List.foldl_append, List.foldl_cons, List.foldl_cons,
      sendOne_congr _ t (countsAs5xx_other o) h5xx]
  have hdouble : ∀ y ∈ before ++ (.ok o.other, t) :: after, Returns y.1 := by
    intro y hy
    rcases List.mem_append.mp hy with hy | hy
    · exact hreturns y (by simp [hy])
    · rcases List.mem_cons.mp hy with rfl | hy
      · exact ⟨_, rfl⟩
      · exact hreturns y (by simp [hy])
  have hcount := h _ hdouble ⟨by rw [hsame], fun _ => by rw [hsame]⟩
  simp only [failures, List.countP_append, List.countP_cons, responded_other] at hcount
  cases hresp : responded (.ok o) with
  | true => simp [hresp] at hcount
  | false => simp [hresp] at hcount

/-- **Among the requests whose `send` returns, the counts determine the failures exactly when
    there is no failure and no server error.** -/
theorem determinedAmong_returns_iff {xs : List (Except String Outcome × ℚ)}
    (hreturns : ∀ x ∈ xs, Returns x.1) :
    DeterminedAmong Returns xs ↔ ∀ x ∈ xs, AnsweredBelow500 x.1 := by
  have hclear : ∀ {e : Except String Outcome}, Returns e →
      (countsAs5xx e = false ↔ AnsweredBelow500 e) := by
    rintro _ ⟨outcome, rfl⟩
    unfold AnsweredBelow500
    rw [countsAs5xx, ← Bool.not_eq_true, countsAs5xx_iff]
    push Not
    simp
  have hfailed : ∀ {e : Except String Outcome}, Returns e → responded e = false →
      countsAs5xx e = true := by
    rintro _ ⟨outcome, rfl⟩ hnone
    rw [countsAs5xx, countsAs5xx_iff]
    intro status hstatus
    simp [responded, hstatus] at hnone
  constructor
  · intro h x hx
    obtain ⟨outcome, hout⟩ := hreturns x hx
    rw [← hclear (hreturns x hx), ← Bool.not_eq_true]
    intro h5xx
    rw [hout, countsAs5xx] at h5xx
    have hmem : ((.ok outcome, x.2) : Except String Outcome × ℚ) ∈ xs := by
      rw [← hout]
      exact hx
    exact not_determinedAmong hreturns hmem h5xx h
  · intro h ys hys hsame
    -- No request counts as 5xx on the one side, so none does on the other.
    have hxs : xs.countP (fun x => countsAs5xx x.1) = 0 := by
      rw [List.countP_eq_zero]
      intro x hx
      rw [(hclear (hreturns x hx)).mpr (h x hx)]
      exact Bool.false_ne_true
    have hcount : ys.countP (fun x => countsAs5xx x.1) = 0 := by
      have hget : (recorded xs).byClass.getD "5xx" 0 = (recorded ys).byClass.getD "5xx" 0 :=
        congrArg (Option.getD · 0) (hsame.2 "5xx")
      rwa [byClass_recorded, byClass_recorded, hxs, eq_comm] at hget
    have hzero : ∀ zs : List (Except String Outcome × ℚ), (∀ z ∈ zs, Returns z.1) →
        zs.countP (fun x => countsAs5xx x.1) = 0 → failures zs = 0 := by
      intro zs hzs hnone
      rw [List.countP_eq_zero] at hnone
      rw [failures, List.countP_eq_zero]
      intro z hz hunanswered
      refine hnone z hz (hfailed (hzs z hz) ?_)
      simpa using hunanswered
    rw [hzero xs hreturns hxs, hzero ys hys hcount]

/-! ## The exit code

`main` has nothing but the statistics to go by. -/

/-- The end of `main`: the error it logs, and what it returns. -/
def mainEnd (target : String) (stats : Stats) : Option String × ℕ :=
  if stats.sent = 0 then (some s!"no requests were sent - is {target} reachable?", 1)
  else (none, 0)

def Action.sendResult? : Action → Option SendResult
  | .worker _ (.send _ result) => some result
  | _ => none

/-- What the workers' calls of `send` end with, in order. -/
def sends (as : List Action) : List SendResult := as.filterMap Action.sendResult?

def SendResult.isStatus : SendResult → Bool
  | .status _ => true
  | .raised _ => false

def WorkerPc.isAnswered : WorkerPc → Bool
  | .answered _ _ _ => true
  | _ => false

/-- Every status that was returned is recorded, or its worker is about to. -/
def Recorded (as : List Action) (s : State) : Prop :=
  (sends as).countP SendResult.isStatus = s.stats.sent + s.workers.countP WorkerPc.isAnswered

theorem sends_snoc (as : List Action) (a : Action) :
    sends (as ++ [a]) = sends as ++ (Action.sendResult? a).toList := by
  cases h : Action.sendResult? a <;> simp [sends, h]

theorem recorded_dispatcher {g : LoadGenerator} {as : List Action} {s s' : State}
    {a : DispatcherAction} (hr : Recorded as s) (h : DispatcherStep g s a s') :
    Recorded (as ++ [.dispatcher a]) s' := by
  have hsends : sends (as ++ [.dispatcher a]) = sends as := by simp [sends_snoc, Action.sendResult?]
  unfold Recorded at hr ⊢
  rw [hsends]
  cases h with
  | submit n hpc =>
    rw [List.countP_append]
    exact hr
  | readNow now s' hpc hsel =>
    obtain ⟨-, hw, hst, -⟩ := hsel.frame
    rw [hw, hst]
    exact hr
  | readStarted | checkStop | armed | armFailed | putNowait | putFull | recordDropped | pace | wake
  | putShutdown | leave | propagate => exact hr

theorem recorded_worker {as : List Action} {s s' : State} {w : ℕ} {a : WorkerAction}
    (hr : Recorded as s) (h : workerStep s w a = some s') : Recorded (as ++ [.worker w a]) s' := by
  obtain ⟨pc, q, st, pc', q', st', hpc, hq, hst, hmove, rfl⟩ := workerStep_cases h
  have hcount := Threads.countP_set (b := pc') WorkerPc.isAnswered hpc
  unfold Recorded at hr ⊢
  rw [hst] at hr
  rw [sends_snoc, List.countP_append]
  dsimp only
  cases hmove <;>
    simp only [Action.sendResult?, Option.toList_none, Option.toList_some, List.countP_nil,
      List.countP_singleton, SendResult.isStatus, WorkerPc.isAnswered, Bool.toNat_false,
      Bool.toNat_true, if_true, Bool.false_eq_true, if_false, Stats.sent_record] at hcount hr ⊢ <;>
    omega

theorem Run.recorded {g : LoadGenerator} {as : List Action} {s : State} (h : Run g as s) :
    Recorded as s := by
  refine h.invariant_trace (I := Recorded) rfl ?_
  intro as s a s' hr _ hn
  cases a with
  | stop =>
    cases hn
    have hsends : sends (as ++ [.stop]) = sends as := by simp [sends_snoc, Action.sendResult?]
    unfold Recorded at hr ⊢
    rw [hsends]
    exact hr
  | dispatcher a => exact recorded_dispatcher hr (dispatcherStep_cases hn)
  | worker w a => exact recorded_worker hr hn

/-- A run that returned has recorded every status. -/
theorem Run.sent_eq {g : LoadGenerator} {as : List Action} {s : State} (h : Run g as s)
    (hpc : s.pc = .returned) : s.stats.sent = (sends as).countP SendResult.isStatus := by
  have hall := h.inv.ended (by rw [hpc]; rfl)
  have hzero : s.workers.countP WorkerPc.isAnswered = 0 := by
    rw [List.countP_eq_zero]
    intro w hw
    rw [hall w hw]
    exact Bool.false_ne_true
  rw [h.recorded, hzero, Nat.add_zero]

theorem mainEnd_ne_zero_iff (target : String) {g : LoadGenerator} {as : List Action} {s : State}
    {exchanges : List (Except String Outcome)} (h : Run g as s) (hpc : s.pc = .returned)
    (hsends : sends as = exchanges.map UrllibTransport.send) :
    (mainEnd target s.stats).2 ≠ 0 ↔ ∀ e ∈ exchanges, ∃ exc, e = .error exc := by
  have hexit : (mainEnd target s.stats).2 ≠ 0 ↔ s.stats.sent = 0 := by
    unfold mainEnd
    split <;> simp [*]
  rw [hexit, h.sent_eq hpc, hsends, List.countP_eq_zero, List.forall_mem_map]
  apply forall_congr'
  intro e
  apply forall_congr'
  intro _
  cases e with
  | ok outcome => simp [UrllibTransport.send, SendResult.isStatus]
  | error exc => simp [UrllibTransport.send, SendResult.isStatus]

/-- **When transport failures are told apart from responses.** The counts never determine how many
    requests had no response: one whose `send` raises leaves them as they were. Of the requests
    whose `send` returns, they do when none failed and none was answered with a 5xx. And a run in
    which no request was answered is reported when none of them failed either. -/
theorem transport_failures_told_apart_iff (xs : List (Except String Outcome × ℚ))
    (g : LoadGenerator) (as : List Action) (s : State) (target : String)
    (exchanges : List (Except String Outcome)) :
    (¬ Determined xs) ∧
    ((∀ x ∈ xs, Returns x.1) →
      (DeterminedAmong Returns xs ↔ ∀ x ∈ xs, AnsweredBelow500 x.1)) ∧
    (Run g as s → s.pc = .returned → sends as = exchanges.map UrllibTransport.send →
      (((∀ e ∈ exchanges, responded e = false) → (mainEnd target s.stats).2 ≠ 0) ↔
        (∃ e ∈ exchanges, responded e = true) ∨
          ∀ e ∈ exchanges, ∀ reason, e ≠ .ok (.failed reason))) := by
  refine ⟨not_determined xs, determinedAmong_returns_iff, ?_⟩
  intro hrun hpc hsends
  rw [mainEnd_ne_zero_iff target hrun hpc hsends]
  constructor
  · intro h
    by_cases hany : ∃ e ∈ exchanges, responded e = true
    · exact Or.inl hany
    · refine Or.inr ?_
      intro e he reason heq
      have hnone : ∀ e ∈ exchanges, responded e = false := by
        intro e' he'
        exact Bool.eq_false_iff.mpr fun h' => hany ⟨e', he', h'⟩
      obtain ⟨exc, herr⟩ := h hnone e he
      cases heq.symm.trans herr
  · intro h hnone e he
    rcases h with ⟨e', he', hresp⟩ | hfailed
    · exact absurd (hnone e' he') (by simp [hresp])
    · cases e with
      | error exc => exact ⟨exc, rfl⟩
      | ok outcome =>
        cases outcome with
        | failed reason => exact absurd rfl (hfailed _ he reason)
        | response status | httpError status => cases hnone _ he

/-! ### A target that refuses the connection -/

/-- One request, which is refused. -/
def refusedRun : List Action :=
  [.dispatcher (.readStarted 5), .dispatcher .submit, .dispatcher .checkStop,
   .dispatcher (.readNow 5), .dispatcher (.putNowait 0), .worker 0 (.getSlot 0),
   .dispatcher (.pace 5), .stop, .worker 0 (.choose ⟨"GET", "/api/items", none⟩ 5),
   .dispatcher .wake, .dispatcher .checkStop, .dispatcher .putShutdown,
   .worker 0 (.send 0 (.status 599)), .worker 0 (.record 6), .worker 0 .getShutdown,
   .dispatcher .exitPool]

def refusedState : State where
  pc := .returned
  stop := true
  started := 5
  nextSlot := 5 + 1 / 20
  current := some steady
  slots := []
  workers := [.exited]
  stats := Stats.init.record 599 1
  opened := 1

def refused : Except String Outcome := .ok (.failed "[Errno 111] Connection refused")

theorem run_refusedRun : Run steadyGenerator refusedRun refusedState :=
  steps_of_exec (by decide +kernel)

theorem transport_failures_told_apart_refused :
    (¬ DeterminedAmong Returns [(refused, 1)]) ∧
      ¬ ((∀ e ∈ [refused], responded e = false) →
        (mainEnd "http://svc" refusedState.stats).2 ≠ 0) := by
  obtain ⟨-, hcounts, hexit⟩ := transport_failures_told_apart_iff [(refused, 1)] steadyGenerator
    refusedRun refusedState "http://svc" [refused]
  constructor
  · rw [hcounts (by simp [Returns, refused])]
    simp [AnsweredBelow500, refused, Outcome.status]
  · rw [hexit run_refusedRun rfl rfl]
    simp [refused, responded, Outcome.status]

/-- Neither half of the separation holds: not for a refused connection beside a 503, and not for a
    run in which every connection is refused. -/
theorem transport_failures_are_not_told_apart :
    (¬ ∀ xs ys, SameCounts (recorded xs) (recorded ys) → failures xs = failures ys) ∧
      ¬ ∀ (g : LoadGenerator) (as : List Action) (s : State) (target : String)
        (exchanges : List (Except String Outcome)),
        Run g as s → s.pc = .returned → sends as = exchanges.map UrllibTransport.send →
        (∀ e ∈ exchanges, responded e = false) → (mainEnd target s.stats).2 ≠ 0 := by
  constructor
  · intro h
    have hsame : recorded [(refused, 1)] = recorded [(.ok (Outcome.other (.failed "")), 1)] :=
      sendOne_congr .init 1 (by decide) (by decide)
    have hcount := h [(refused, 1)] [(.ok (Outcome.other (.failed "")), 1)]
      ⟨by rw [hsame], fun _ => by rw [hsame]⟩
    exact absurd hcount (by decide)
  · intro h
    have hexit := h steadyGenerator refusedRun refusedState "http://svc" [refused] run_refusedRun
      rfl rfl (by simp [refused, responded, Outcome.status])
    exact hexit rfl

end Loadgen
end ObservabilityStack
