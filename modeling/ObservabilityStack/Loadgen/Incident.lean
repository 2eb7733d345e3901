import ObservabilityStack.Loadgen.Timed
import ObservabilityStack.SampleApp.FaultApi

/-!
# An injected incident lasts as long as its phase

The generator and the service it arms, run together. An arming is one request to the fault API,
handled at some moment while the dispatcher waits for it; the service's clock is the
generator's, off by a constant. Nobody else controls the injector.

The generator selects a phase while the elapsed time is before its end, and the injector shows a
fault while the time is before its expiry. Both ends are excluded, and the fault is injected no
earlier than the phase was entered, so a time to live equal to the duration is enough: what was
armed for the phase `current` is in force until that phase ends (`InForceUntil`), however late
the phase was entered.

Two programs, two clocks, and a network in between, and yet the condition is one comparison: time
to live against duration. That equality is enough is because both intervals are half open on one
side. The handler of the fault interface runs after the request was sent, and so after the phase
was entered, which is the one ordering of events between the two programs that is used.
-/

set_option autoImplicit false

namespace ObservabilityStack
namespace Loadgen

open Transition
open SampleApp (FaultInjector FaultState Validation handleFaults)

/-! ## The two programs together

The driver on its clock beside the history of an injector. The only steps they share are armings. -/

structure Demo where
  driver : Timed
  faults : FaultInjector

/-- How the service answers the request of `arm` now, and what is left of the injector. `skew`
    is what the service's clock shows when the generator's shows 0. -/
def Demo.answer (v : Validation) (skew : ℚ) (c : Demo) (fault : Fault) : ℤ × FaultInjector :=
  handleFaults v c.faults (c.driver.time + skew) (c.driver.time + skew)
    fault.method fault.path fault.payload

def demoNext (v : Validation) (skew : ℚ) (g : LoadGenerator) (c : Demo) (a : TimedAction) :
    Option Demo :=
  match a with
  | .act (.dispatcher (.arm fault result)) =>
      if result = .status (c.answer v skew fault).1 then
        (timedNext g c.driver a).map fun d => ⟨d, (c.answer v skew fault).2⟩
      else none
  | a => (timedNext g c.driver a).map fun d => ⟨d, c.faults⟩

/-- `state` holds exactly this fault: the values of its payload, or the declared defaults. -/
def Holds (fault : Fault) (state : FaultState) : Prop :=
  match fault.kind with
  | .latency => ∃ armed, state.latency = some armed ∧
      fault.payload.lookup "delay_ms" = some armed.delayMs ∧
      (fault.payload.lookup "jitter_ms").getD 0 = armed.jitterMs
  | .errors => ∃ armed, state.errors = some armed ∧
      fault.payload.lookup "ratio" = some armed.ratio ∧
      (fault.payload.lookup "status_code").getD 503 = armed.statusCode
  | .clear => state = ⟨none, none⟩

/-- `fault` is armed, and will be shown at every time before `deadline`. -/
def InForceUntil (deadline : ℚ) (fault : Fault) (faults : FaultInjector) : Prop :=
  ∀ now < deadline, Holds fault (faults.state now)

/-! ## Arming

What the handler of an arming leaves in force, and until when, from the payload. -/

/-- The times to live a scenario needs. -/
def Outlasts (fault : Fault) (seconds : ℤ) : Prop :=
  fault.kind ≠ .clear → ∃ ttl : ℤ, fault.payload.lookup "ttl_seconds" = some (ttl : ℚ) ∧
    seconds ≤ ttl

/-- An arming that succeeds has put the fault in force for its time to live. -/
theorem inForce_of_armed {v : Validation} {faults : FaultInjector} {fault : Fault}
    {now viewed : ℚ} {seconds : ℤ}
    (hok : (handleFaults v faults now viewed fault.method fault.path fault.payload).1 < 400)
    (hoff : Outlasts fault seconds) :
    InForceUntil (now + seconds) fault
      (handleFaults v faults now viewed fault.method fault.path fault.payload).2 := by
  intro t ht
  -- The time to live is the one of the payload, whatever the service would have by default.
  have hlater : ∀ ttl : ℤ, fault.kind ≠ .clear →
      (fault.payload.lookup "ttl_seconds").getD 300 = (ttl : ℚ) → t < now + ttl := by
    intro ttl hkind httl
    obtain ⟨ttl', hlookup, hle⟩ := hoff hkind
    have heq : (ttl' : ℚ) = ttl := by rwa [hlookup] at httl
    have hcast : (seconds : ℚ) ≤ (ttl' : ℚ) := by exact_mod_cast hle
    linarith
  unfold Holds
  cases hkind : fault.kind with
  | latency =>
    have hmethod : fault.method = "POST" := by simp [Fault.method, hkind]
    have hpath : fault.path = "/faults/latency" := by simp [Fault.path, hkind, FaultKind.text]
    rw [hmethod, hpath] at hok ⊢
    obtain ⟨payload, armed, hv, hd, hj, he, heq⟩ := SampleApp.handleFaults_latency hok
    obtain ⟨hd', hj', httl⟩ := v.latency_eq _ _ hv
    have hexp : armed.expiresAt > t := he ▸ hlater _ (by simp [hkind]) httl
    rw [heq]
    exact ⟨armed, by simp [FaultInjector.state, hexp], hd ▸ hd', hj ▸ hj'⟩
  | errors =>
    have hmethod : fault.method = "POST" := by simp [Fault.method, hkind]
    have hpath : fault.path = "/faults/errors" := by simp [Fault.path, hkind, FaultKind.text]
    rw [hmethod, hpath] at hok ⊢
    obtain ⟨payload, armed, hv, hr, hs, he, heq⟩ := SampleApp.handleFaults_errors hok
    obtain ⟨hr', hs', httl⟩ := v.errors_eq _ _ hv
    have hexp : armed.expiresAt > t := he ▸ hlater _ (by simp [hkind]) httl
    rw [heq]
    exact ⟨armed, by simp [FaultInjector.state, hexp], hr ▸ hr', hs ▸ hs'⟩
  | clear =>
    have hmethod : fault.method = "DELETE" := by simp [Fault.method, hkind]
    have hpath : fault.path = "/faults" := by simp [Fault.path, hkind]
    rw [hmethod, hpath, SampleApp.handleFaults_clear]
    rfl

/-! ## What is in force while the generator runs

The joint invariant: what the phase `current` has armed is in force until the end of that phase, or
there is nothing to be in force. It is kept by time, since it names a time, and renewed by
armings. -/

/-- What the clock of the service shows when `phase` ends, if it starts at `start`. -/
def Demo.endOf (c : Demo) (skew : ℚ) (phase : Phase) (start : ℤ) : ℚ :=
  c.driver.state.started + start + phase.durationSeconds + skew

structure Lasting (g : LoadGenerator) (skew : ℚ) (c : Demo) : Prop where
  fresh : c.driver.state.pc = .entering → c.driver.state.current = none
  /-- A fault that is being armed is that of a phase that has started. -/
  entered : ∀ phase fault now, c.driver.state.pc = .arming phase fault now →
    phase.fault = some fault ∧ ∃ start, g.scenario.StartsAt phase start ∧
      c.driver.state.started + start ≤ c.driver.time
  /-- What `current` has armed is in force until its phase ends. -/
  inForce : ∀ phase, c.driver.state.current = some phase →
    ∃ start, g.scenario.StartsAt phase start ∧
      ∀ fault, phase.fault = some fault → InForceUntil (c.endOf skew phase start) fault c.faults

theorem lasting_init (g : LoadGenerator) (skew t : ℚ) (faults : FaultInjector) :
    Lasting g skew ⟨.init t, faults⟩ :=
  ⟨fun _ => rfl, fun _ _ _ h => (nomatch h), fun _ h => (nomatch h)⟩

/-- A step that neither starts the clock nor enters a phase. -/
theorem Lasting.frame {g : LoadGenerator} {skew : ℚ} {c c' : Demo} (hc : Lasting g skew c)
    (hfaults : c'.faults = c.faults)
    (hstarted : c'.driver.state.started = c.driver.state.started)
    (hcurrent : c'.driver.state.current = c.driver.state.current)
    (htime : c.driver.time ≤ c'.driver.time)
    (hpc : c'.driver.state.pc = c.driver.state.pc ∨
      c'.driver.state.pc ≠ .entering ∧
        ∀ phase fault now, c'.driver.state.pc ≠ .arming phase fault now) :
    Lasting g skew c' := by
  refine ⟨?_, ?_, ?_⟩
  · intro hentering
    rcases hpc with hpc | ⟨hpc, -⟩
    · rw [hcurrent]
      exact hc.fresh (hpc ▸ hentering)
    · exact absurd hentering hpc
  · intro phase fault now harming
    rcases hpc with hpc | ⟨-, hpc⟩
    · obtain ⟨hfault, start, hstart, hle⟩ := hc.entered phase fault now (hpc ▸ harming)
      exact ⟨hfault, start, hstart, by rw [hstarted]; exact hle.trans htime⟩
    · exact absurd harming (hpc phase fault now)
  · intro phase hphase
    obtain ⟨start, hstart, hforce⟩ := hc.inForce phase (hcurrent ▸ hphase)
    refine ⟨start, hstart, ?_⟩
    intro fault hfault
    unfold Demo.endOf
    rw [hfaults, hstarted]
    exact hforce fault hfault

/-- Every fault of the scenario is armed for at least as long as its phase. -/
def Scenario.FaultsOutlast (s : Scenario) : Prop :=
  ∀ phase ∈ s.phases, ∀ fault, phase.fault = some fault → Outlasts fault phase.durationSeconds

theorem lasting_dispatcher {g : LoadGenerator} {skew : ℚ} {c : Demo} {s : State}
    {a : DispatcherAction} (hc : Lasting g skew c)
    (hread : ∀ now ∈ (Action.dispatcher a).reading, now = c.driver.time)
    (hquiet : ∀ fault result, a ≠ .arm fault result)
    (h : DispatcherStep g c.driver.state a s) :
    Lasting g skew ⟨c.driver.after s (.dispatcher a), c.faults⟩ := by
  have hframe := @Lasting.frame g skew c ⟨c.driver.after s (.dispatcher a), c.faults⟩ hc rfl
  simp only [Timed.after_state, Timed.after_time] at hframe
  cases h with
  -- No phase is current before the loop has started.
  | readStarted now hpc =>
    refine ⟨fun h => (nomatch h), fun _ _ _ h => (nomatch h), ?_⟩
    intro phase hphase
    have hnone := hc.fresh hpc
    cases hnone.symm.trans hphase
  | checkStop hpc =>
    apply hframe rfl rfl (le_refl _)
    cases c.driver.state.stop <;> simp
  | readNow now s hpc hsel =>
    have hnow : now = c.driver.time := hread now rfl
    subst hnow
    cases hsel with
    | backwards | ended | same => exact hframe rfl rfl (le_refl _) (by simp)
    | faulted phase fault hat hcur hfault =>
      refine ⟨fun h => (nomatch h), ?_, hc.inForce⟩
      intro phase' fault' now' harming
      cases harming
      -- The phase was selected at this reading, so its start is not after it.
      obtain ⟨start, hstart, hle, -⟩ := Scenario.phaseAt_eq_some hat
      refine ⟨hfault, start, hstart, ?_⟩
      show c.driver.state.started + start ≤ c.driver.time
      linarith
    -- A phase without a fault promises nothing about one.
    | quiet phase hat hcur hfault =>
      refine ⟨fun h => (nomatch h), fun _ _ _ h => (nomatch h), ?_⟩
      intro phase' hphase
      cases hphase
      obtain ⟨start, hstart, -⟩ := Scenario.phaseAt_eq_some hat
      refine ⟨start, hstart, ?_⟩
      intro fault hsome
      cases hfault.symm.trans hsome
  | armed phase fault now result hpc hok => exact absurd rfl (hquiet fault result)
  | armFailed phase fault now result exc hpc herr => exact absurd rfl (hquiet fault result)
  | pace phase now clock nextSlot hpc hnext =>
    apply hframe rfl rfl (le_refl _)
    right
    dsimp only
    split <;> simp
  | _ => exact hframe rfl rfl (le_refl _) (by simp)

/-- What a step of the demo can do: an arming is answered by the service, and every other action
    leaves the injector alone. -/
inductive DemoStep (v : Validation) (skew : ℚ) (g : LoadGenerator) (c : Demo) :
    TimedAction → Demo → Prop
  | arm (fault : Fault) (d : Timed)
      (hnext : timedNext g c.driver (.act (.dispatcher (.arm fault (.status
        (c.answer v skew fault).1)))) = some d) :
      DemoStep v skew g c (.act (.dispatcher (.arm fault (.status (c.answer v skew fault).1))))
        ⟨d, (c.answer v skew fault).2⟩
  | other (a : TimedAction) (d : Timed)
      (hquiet : ∀ fault result, a ≠ .act (.dispatcher (.arm fault result)))
      (hnext : timedNext g c.driver a = some d) : DemoStep v skew g c a ⟨d, c.faults⟩

theorem demoNext_cases {v : Validation} {skew : ℚ} {g : LoadGenerator} {c c' : Demo}
    {a : TimedAction} (h : demoNext v skew g c a = some c') : DemoStep v skew g c a c' := by
  unfold demoNext at h
  split at h
  · rename_i fault result
    split at h
    · rename_i hresult
      subst hresult
      obtain ⟨d, hd, rfl⟩ := Option.map_eq_some_iff.mp h
      exact .arm fault d hd
    · cases h
  · rename_i hquiet
    obtain ⟨d, hd, rfl⟩ := Option.map_eq_some_iff.mp h
    exact .other a d hquiet hd

theorem lasting_armed {v : Validation} {g : LoadGenerator} {skew : ℚ} {c : Demo} {s : State}
    {fault : Fault} (hoff : g.scenario.FaultsOutlast) (hc : Lasting g skew c)
    (h : DispatcherStep g c.driver.state (.arm fault (.status (c.answer v skew fault).1)) s) :
    Lasting g skew ⟨c.driver.after s (.dispatcher (.arm fault (.status (c.answer v skew fault).1))),
      (c.answer v skew fault).2⟩ := by
  cases h with
  | armed phase fault now result hpc hok =>
    obtain ⟨hfault, start, hstart, hle⟩ := hc.entered phase fault now hpc
    refine ⟨fun h => (nomatch h), fun _ _ _ h => (nomatch h), ?_⟩
    intro phase' hphase
    cases hphase
    refine ⟨start, hstart, ?_⟩
    intro fault' hfault'
    obtain rfl := Option.some.inj (hfault.symm.trans hfault')
    have hmem : phase ∈ g.scenario.phases := by
      obtain ⟨before, after, hphases, -⟩ := hstart
      simp [hphases]
    obtain ⟨code, hcode, hlt⟩ := LoadGenerator.arm_ok_iff.mp hok
    obtain rfl := SendResult.status.inj hcode
    have hforce := inForce_of_armed hlt (hoff phase hmem fault hfault)
    -- Armed no earlier than entered, so at least until the end of the phase.
    intro t ht
    apply hforce t
    refine ht.trans_le ?_
    show c.driver.state.started + start + phase.durationSeconds + skew ≤ _
    linarith
  | armFailed phase fault now result exc hpc herr =>
    have hge : 400 ≤ (c.answer v skew fault).1 := by
      by_contra hlt
      have hok : LoadGenerator.arm fault (.status (c.answer v skew fault).1) = .ok () :=
        LoadGenerator.arm_ok_iff.mpr ⟨_, rfl, not_le.mp hlt⟩
      cases hok.symm.trans herr
    exact hc.frame (SampleApp.handleFaults_refused _ _ _ _ _ _ _ hge) rfl rfl (le_refl _)
      (by simp [Timed.after])

theorem lasting_next {v : Validation} {g : LoadGenerator} {skew : ℚ} {c c' : Demo}
    {a : TimedAction} (hoff : g.scenario.FaultsOutlast) (hc : Lasting g skew c)
    (h : demoNext v skew g c a = some c') : Lasting g skew c' := by
  cases demoNext_cases h with
  | arm fault d hnext =>
    cases timedNext_cases hnext with
    | act a s hread hwake hstep => exact lasting_armed hoff hc (dispatcherStep_cases hstep)
  | other a d hquiet hnext =>
    cases timedNext_cases hnext with
    | elapse seconds hpos =>
      exact hc.frame rfl rfl rfl (le_add_of_nonneg_right hpos.le) (Or.inl rfl)
    | act a s hread hwake hstep =>
      cases a with
      | stop =>
        cases hstep
        exact hc.frame rfl rfl rfl (le_refl _) (Or.inl rfl)
      | dispatcher a =>
        apply lasting_dispatcher hc hread _ (dispatcherStep_cases hstep)
        intro fault result harm
        exact hquiet fault result (by rw [harm])
      | worker w a =>
        obtain ⟨hpc, -, hstarted, -, hcurrent⟩ := workerStep_frame hstep
        refine hc.frame rfl ?_ ?_ ?_ ?_
        · rw [Timed.after_state, hstarted]
        · rw [Timed.after_state, hcurrent]
        · rw [Timed.after_time]
        · rw [Timed.after_state]
          exact Or.inl hpc

/-- **The injected incident lasts as long as its phase.** At every time, so whenever the loop
    reads the clock. -/
theorem incident_lasts (v : Validation) (g : LoadGenerator) (skew t : ℚ) (faults : FaultInjector)
    (hdistinct : (g.scenario.phases.map Phase.ref).Nodup) (hoff : g.scenario.FaultsOutlast)
    (as : List TimedAction) (c : Demo)
    (h : Steps (demoNext v skew g) Anywhere ⟨.init t, faults⟩ as c)
    (phase : Phase) (fault : Fault)
    (hselected : g.scenario.phaseAt (c.driver.time - c.driver.state.started) = .ok (some phase))
    (harmed : c.driver.state.current.map Phase.ref = some phase.ref)
    (hfault : phase.fault = some fault) :
    Holds fault (c.faults.state (c.driver.time + skew)) := by
  have hc : Lasting g skew c := h.invariant (lasting_init g skew t faults)
    fun _ _ _ hi _ hn => lasting_next hoff hi hn
  obtain ⟨current, hcurrent, href⟩ := Option.map_eq_some_iff.mp harmed
  obtain ⟨start, hstart, hforce⟩ := hc.inForce current hcurrent
  obtain ⟨start', hstart', -, hlt⟩ := Scenario.phaseAt_eq_some hselected
  obtain ⟨rfl, rfl⟩ := hstart.unique hdistinct hstart' href
  apply hforce fault hfault
  show c.driver.time + skew < c.driver.state.started + start + current.durationSeconds + skew
  linarith

/-! ### A spike whose time to live is its duration

Entered half a second late, and read a second later. -/

def calm : Phase where
  ref := 0
  name := "baseline"
  durationSeconds := 1
  rps := 2 / 3
  fault := some ⟨.clear, []⟩
  duration_pos := Int.one_pos
  rps_pos := by decide +kernel

def spike : Phase where
  ref := 1
  name := "spike"
  durationSeconds := 2
  rps := 1
  fault := some ⟨.latency, [("delay_ms", 700), ("jitter_ms", 200), ("ttl_seconds", 2)]⟩
  duration_pos := by decide
  rps_pos := by decide +kernel

def spikeGenerator : LoadGenerator where
  target := "http://svc"
  scenario :=
    { name := "unit", description := "", phases := [calm, spike], expectedAlerts := []
      phases_ne := by simp
      ref_inj := by simp [calm, spike] }
  workers := 1
  workers_pos := Nat.one_pos

def spikeRun : List TimedAction :=
  [.act (.dispatcher (.readStarted 5)), .act (.dispatcher .submit),
   .act (.dispatcher .checkStop), .act (.dispatcher (.readNow 5)),
   .act (.dispatcher (.arm ⟨.clear, []⟩ (.status 200))), .act (.dispatcher (.putNowait 0)),
   .act (.dispatcher (.pace 5)), .elapse (3 / 2), .act (.dispatcher .wake),
   .act (.dispatcher .checkStop), .act (.dispatcher (.readNow (13 / 2))),
   .act (.dispatcher (.arm ⟨.latency, [("delay_ms", 700), ("jitter_ms", 200), ("ttl_seconds", 2)]⟩
     (.status 200))),
   .act (.dispatcher (.putNowait 1)), .act (.dispatcher (.pace (13 / 2))), .elapse 1,
   .act (.dispatcher .wake), .act (.dispatcher .checkStop)]

theorem incident_lasts_spike :
    ∃ c, Steps (demoNext .declared 100 spikeGenerator) Anywhere ⟨.init 5, .init⟩ spikeRun c ∧
      c.driver.state.pc = .selecting ∧
      Holds ⟨.latency, [("delay_ms", 700), ("jitter_ms", 200), ("ttl_seconds", 2)]⟩
        (c.faults.state (c.driver.time + 100)) := by
  have hend : (exec (demoNext .declared 100 spikeGenerator) ⟨.init 5, .init⟩ spikeRun).map
      (fun c => (c.driver.state.pc, c.driver.time, c.driver.state.started,
        c.driver.state.current)) = some (.selecting, 15 / 2, 5, some spike) := by decide +kernel
  obtain ⟨c, hc, heq⟩ := Option.map_eq_some_iff.mp hend
  simp only [Prod.mk.injEq] at heq
  obtain ⟨hpc, htime, hstarted, hcurrent⟩ := heq
  have hrun := steps_of_exec hc
  refine ⟨c, hrun, hpc, ?_⟩
  refine incident_lasts .declared spikeGenerator 100 5 .init (by decide) ?_ spikeRun c hrun spike _
    ?_ (by rw [hcurrent]; rfl) rfl
  · intro phase hmem fault hfault hkind
    simp only [spikeGenerator, List.mem_cons, List.not_mem_nil, or_false] at hmem
    rcases hmem with rfl | rfl
    · cases hfault
      exact absurd rfl hkind
    · cases hfault
      exact ⟨2, by decide, le_refl 2⟩
  · rw [htime, hstarted]
    decide +kernel

end Loadgen
end ObservabilityStack
