import ObservabilityStack.Alertmanager.Config

/-!
# What the inhibit rules silence

Two questions about an arbitrary finite set of firing alerts. Is somebody still paged for every
alert that is muted? And is the alert that mutes another one about the same object?

Both start from `inhibits_iff`, which reads the three rules once. For the first question the
chains are short: only a warning or a burn-rate alert is ever muted, a muted critical alert is
muted by `TargetDown`, and nothing mutes `TargetDown` or `ProbeFailed`. For the second, two of the
rules compare `job` and say nothing about `instance`, so the answer is yes exactly when no alert
is a `Bystander`.

An alert that is firing here is one that the rules of Prometheus generate (`Generated`): its name
decides its severity, by the table of the alerting rules. Everything else about it is arbitrary,
and so is the set of those that fire together. Both results would be false for labels that anybody
may choose.

The notification is part of the first result, not only that some alert is not muted. So the routing
tree and the quiet times are used: the critical receiver has none.
-/

set_option autoImplicit false

namespace ObservabilityStack
namespace Alertmanager

open Prometheus (Labels label Generated)

/-! ## Reading the rules

The rules as an inductive relation with one constructor for each, so that a proof takes cases on
the rule that applied. -/

theorem accepts_equals (name value : String) (a : Labels) :
    (Matcher.mk name (.equals value)).accepts a = true ↔ label a name = value := by
  simp [Matcher.accepts]

theorem mutes_iff (rule : InhibitRule) (s t : Labels) :
    rule.mutes s t = true ↔ (∀ m ∈ rule.sourceMatchers, m.accepts s = true) ∧
      (∀ m ∈ rule.targetMatchers, m.accepts t = true) ∧
      ∀ name ∈ rule.equal, label s name = label t name := by
  simp [InhibitRule.mutes, and_assoc]

/-- The three ways one alert mutes another. -/
inductive Silences (s t : Labels) : Prop
  | critical (hs : label s "severity" = "critical") (ht : label t "severity" = "warning")
      (hjob : label s "job" = label t "job")
  | targetDown (hs : label s "alertname" = "TargetDown") (ht : isMetricDerived.accepts t = true)
      (hjob : label s "job" = label t "job")
  | probeFailed (hs : label s "alertname" = "ProbeFailed")
      (ht : label t "alertname" = "ProbeSlow")
      (hinstance : label s "instance" = label t "instance")

theorem inhibits_iff (s t : Labels) :
    Inhibits config.inhibitRules s t ↔ s ≠ t ∧ Silences s t := by
  apply and_congr_right
  intro _
  show (∃ rule ∈ inhibitRules, rule.mutes s t = true) ↔ Silences s t
  simp only [inhibitRules, List.mem_cons, List.not_mem_nil, or_false, exists_eq_or_imp,
    exists_eq_left, mutes_iff, forall_eq, isCritical, isWarning, isTargetDown,
    isProbeFailed, isProbeSlow, accepts_equals]
  constructor
  · intro h
    rcases h with ⟨hs, ht, hjob⟩ | ⟨hs, ht, hjob⟩ | ⟨hs, ht, hinstance⟩
    · exact .critical hs ht hjob
    · exact .targetDown hs ht hjob
    · exact .probeFailed hs ht hinstance
  · intro h
    cases h with
    | critical hs ht hjob => exact Or.inl ⟨hs, ht, hjob⟩
    | targetDown hs ht hjob => exact Or.inr (Or.inl ⟨hs, ht, hjob⟩)
    | probeFailed hs ht hinstance => exact Or.inr (Or.inr ⟨hs, ht, hinstance⟩)

/-- Which alerts the second rule mutes depends on their names alone. -/
theorem isMetricDerived_accepts (a : Labels) : isMetricDerived.accepts a =
    (match isMetricDerived.test with
      | .equals value => label a "alertname" == value
      | .regex alternatives => alternatives.any fun p => p.accepts (label a "alertname")) := rfl

/-! ## Alerts that nothing mutes

A rule says which alerts it mutes by name or by severity, and an alert has one name and one
severity. The two roots of every chain of inhibition are on no rule's right side. -/

/-- A critical alert is muted by a `TargetDown` of its job, or not at all. -/
theorem silences_critical {s t : Labels} (hgen : Generated t)
    (hcritical : label t "severity" = "critical") (h : Silences s t) :
    label s "alertname" = "TargetDown" ∧ label s "job" = label t "job" ∧
      isMetricDerived.accepts t = true := by
  cases h with
  | critical hs ht hjob =>
    rw [hcritical] at ht
    exact absurd ht (by decide)
  | targetDown hs ht hjob => exact ⟨hs, hjob, ht⟩
  | probeFailed hs ht hinstance =>
    have hwarning := hgen.severity (r := Prometheus.probeSlow) (by decide) ht
    rw [hcritical] at hwarning
    exact absurd hwarning (by decide)

theorem not_muted_of_name {firing : List Labels} {a : Labels} {r : Prometheus.AlertingRule}
    (hgen : Generated a) (hr : r ∈ Prometheus.alertingRules)
    (hname : label a "alertname" = r.alert) (hcritical : r.severity = "critical")
    (hmetric : isMetricDerived.accepts a = false) : ¬ Muted config.inhibitRules firing a := by
  intro h
  obtain ⟨s, _, hs⟩ := h
  have hsev : label a "severity" = "critical" := (hgen.severity hr hname).trans hcritical
  have := (silences_critical hgen hsev ((inhibits_iff s a).mp hs).2).2.2
  rw [hmetric] at this
  exact absurd this (by decide)

/-- Nothing mutes `TargetDown`. -/
theorem targetDown_not_muted {firing : List Labels} {a : Labels} (hgen : Generated a)
    (hname : label a "alertname" = "TargetDown") : ¬ Muted config.inhibitRules firing a := by
  apply not_muted_of_name hgen (r := Prometheus.targetDown) (by decide) hname rfl
  rw [isMetricDerived_accepts, hname]
  decide

/-- Nothing mutes `ProbeFailed`. -/
theorem probeFailed_not_muted {firing : List Labels} {a : Labels} (hgen : Generated a)
    (hname : label a "alertname" = "ProbeFailed") : ¬ Muted config.inhibitRules firing a := by
  apply not_muted_of_name hgen (r := Prometheus.probeFailed) (by decide) hname rfl
  rw [isMetricDerived_accepts, hname]
  decide

/-! ## Critical alerts reach the pager

The chain has at most two links, so it is followed by hand: what mutes a warning is critical, and
what mutes a critical alert is `TargetDown`, which nothing mutes. -/

/-- Either of the first two branches takes a critical alert, and neither is ever quiet. -/
theorem select_critical {a : Labels} (h : label a "severity" = "critical") :
    Route.select a config.route = some ⟨"pager", []⟩ := by
  have hcritical : isCritical.accepts a = true := (accepts_equals _ _ _).mpr h
  by_cases hjob : isMonitoring.accepts a = true
  · simp [config, route, Route.select, selectFirst, hjob]
  · simp [config, route, Route.select, selectFirst, hjob, hcritical]

theorem notifies_critical {a : Labels} (h : label a "severity" = "critical") (now : Moment) :
    config.notifies now a = some "pager" := by
  unfold Config.notifies
  rw [select_critical h]
  simp [Config.quiet]

/-- **Inhibition never silences an incident.** Every muted alert has a firing critical alert of
    the same job or the same instance that is not muted and that pages at any time of any day. -/
theorem muted_alert_is_paged_for (firing : List Labels) (hgen : ∀ a ∈ firing, Generated a)
    (t : Labels) (hmuted : Muted config.inhibitRules firing t) :
    ∃ s ∈ firing, label s "severity" = "critical" ∧
      (label s "job" = label t "job" ∨ label s "instance" = label t "instance") ∧
      ¬ Muted config.inhibitRules firing s ∧
      ∀ now, config.notifies now s = some "pager" := by
  have paged : ∀ s ∈ firing, label s "alertname" = "TargetDown" → label s "severity" = "critical" :=
    fun s hs hname => (hgen s hs).severity (r := Prometheus.targetDown) (by decide) hname
  obtain ⟨s, hs, hinhibits⟩ := hmuted
  cases ((inhibits_iff s t).mp hinhibits).2 with
  | critical hcritical _ hjob =>
    by_cases hsmuted : Muted config.inhibitRules firing s
    · -- The critical alert is muted itself: its `TargetDown` has the same job and is not.
      obtain ⟨r, hr, hrs⟩ := hsmuted
      obtain ⟨hname, hrjob, _⟩ :=
        silences_critical (hgen s hs) hcritical ((inhibits_iff r s).mp hrs).2
      exact ⟨r, hr, paged r hr hname, Or.inl (hrjob.trans hjob),
        targetDown_not_muted (hgen r hr) hname, notifies_critical (paged r hr hname)⟩
    · exact ⟨s, hs, hcritical, Or.inl hjob, hsmuted, notifies_critical hcritical⟩
  | targetDown hname _ hjob =>
    exact ⟨s, hs, paged s hs hname, Or.inl hjob, targetDown_not_muted (hgen s hs) hname,
      notifies_critical (paged s hs hname)⟩
  | probeFailed hname _ hinstance =>
    have hcritical := (hgen s hs).severity (r := Prometheus.probeFailed) (by decide) hname
    exact ⟨s, hs, hcritical, Or.inr hinstance, probeFailed_not_muted (hgen s hs) hname,
      notifies_critical hcritical⟩

/-- Labels of an alert of that name and severity. -/
def firingAlert (name severity job target : String) : Labels :=
  (((Dict.empty.set "alertname" name).set "severity" severity).set "job" job).set "instance" target

/-- The sample application is down while its error budget burns, slowly and fast. -/
def outage : List Labels :=
  [firingAlert "ErrorBudgetBurnSlow" "warning" "sample-app" "",
   firingAlert "ErrorBudgetBurnFast" "critical" "sample-app" "",
   firingAlert "TargetDown" "critical" "sample-app" "sample-app:8000"]

theorem outage_is_paged_for :
    ∃ s ∈ outage, label s "severity" = "critical" ∧
      (label s "job" = "sample-app" ∨ label s "instance" = "") ∧
      ¬ Muted config.inhibitRules outage s ∧ ∀ now, config.notifies now s = some "pager" :=
  muted_alert_is_paged_for outage (by decide)
    (firingAlert "ErrorBudgetBurnSlow" "warning" "sample-app" "") (by decide)

/-! ## The same object

A job may have several instances, and two rules do not look at the instance. The condition is on
the set of firing alerts as it is, and says of a warning whether there is somebody to mute it who
is not about its object, without anybody who is. -/

/-- The names of the warnings that carry an `instance` label. -/
def instanceWarnings : List String := ["DiskSpaceLow", "MemoryPressure", "ProbeSlow"]

/-- Every firing warning of those that is muted is muted by an alert of its instance. -/
def MutedForSameObject (firing : List Labels) : Prop :=
  ∀ t ∈ firing, label t "alertname" ∈ instanceWarnings → Muted config.inhibitRules firing t →
    ∃ s ∈ firing, Inhibits config.inhibitRules s t ∧ label s "instance" = label t "instance"

/-- A warning whose job has a critical alert, but whose instance has none of its own, and no
    failed probe either when the warning is about a slow one. -/
def Bystander (firing : List Labels) (t : Labels) : Prop :=
  (∃ s ∈ firing, label s "severity" = "critical" ∧ label s "job" = label t "job") ∧
  (∀ s ∈ firing, label s "severity" = "critical" → label s "job" = label t "job" →
    label s "instance" ≠ label t "instance") ∧
  (label t "alertname" = "ProbeSlow" →
    ∀ s ∈ firing, label s "alertname" = "ProbeFailed" → label s "instance" ≠ label t "instance")

instance (firing : List Labels) : Decidable (MutedForSameObject firing) :=
  inferInstanceAs (Decidable (∀ _ ∈ _, _))

instance (firing : List Labels) (t : Labels) : Decidable (Bystander firing t) :=
  inferInstanceAs (Decidable (_ ∧ _))

/-- The three names are those of warnings, and the second rule does not mention them. -/
theorem instanceWarning_spec {t : Labels} (hgen : Generated t)
    (hname : label t "alertname" ∈ instanceWarnings) :
    label t "severity" = "warning" ∧ isMetricDerived.accepts t = false := by
  rw [isMetricDerived_accepts]
  simp only [instanceWarnings, List.mem_cons, List.not_mem_nil, or_false] at hname
  rcases hname with hname | hname | hname <;> rw [hname]
  · exact ⟨hgen.severity (r := Prometheus.diskSpaceLow) (by decide) hname, by decide⟩
  · exact ⟨hgen.severity (r := Prometheus.memoryPressure) (by decide) hname, by decide⟩
  · exact ⟨hgen.severity (r := Prometheus.probeSlow) (by decide) hname, by decide⟩

/-- What mutes such a warning: a critical alert of its job, or a failed probe of its instance. -/
theorem inhibits_instanceWarning {s t : Labels} (ht : Generated t)
    (hname : label t "alertname" ∈ instanceWarnings) :
    Inhibits config.inhibitRules s t ↔
      (label s "severity" = "critical" ∧ label s "job" = label t "job") ∨
        (label s "alertname" = "ProbeFailed" ∧ label t "alertname" = "ProbeSlow" ∧
          label s "instance" = label t "instance") := by
  obtain ⟨hwarning, hmetric⟩ := instanceWarning_spec ht hname
  rw [inhibits_iff]
  constructor
  · intro h
    cases h.2 with
    | critical hcritical _ hjob => exact Or.inl ⟨hcritical, hjob⟩
    | targetDown _ haccepts _ => exact absurd (hmetric.symm.trans haccepts) (by decide)
    | probeFailed hfailed hslow hinstance => exact Or.inr ⟨hfailed, hslow, hinstance⟩
  · intro h
    rcases h with ⟨hcritical, hjob⟩ | ⟨hfailed, hslow, hinstance⟩
    · refine ⟨?_, .critical hcritical hwarning hjob⟩
      intro heq
      rw [← heq, hcritical] at hwarning
      exact absurd hwarning (by decide)
    · refine ⟨?_, .probeFailed hfailed hslow hinstance⟩
      intro heq
      rw [← heq, hfailed] at hslow
      exact absurd hslow (by decide)

/-- Two probes of one job: one fails, another one is slow. -/
def probes : List Labels :=
  [firingAlert "ProbeFailed" "critical" "blackbox-http" "http://grafana:3000/api/health",
   firingAlert "ProbeSlow" "warning" "blackbox-http" "http://sample-app:8000/api/items"]

/-- The slow probe is muted, and by nothing that is about its target. -/
theorem probes_muted_for_another_object :
    ¬ ∀ firing : List Labels, (∀ a ∈ firing, Generated a) → MutedForSameObject firing := by
  intro h
  exact absurd (h probes (by decide)) (by decide)

/-- **Muted for the same object, exactly when no firing warning is a bystander.** -/
theorem mutedForSameObject_iff (firing : List Labels) (hgen : ∀ a ∈ firing, Generated a) :
    MutedForSameObject firing ↔
      ∀ t ∈ firing, label t "alertname" ∈ instanceWarnings → ¬ Bystander firing t := by
  apply forall₂_congr
  intro t ht
  apply forall_congr'
  intro hname
  -- For these warnings the rules come down to two: the same job, or a failed probe of the same
  -- instance.
  have hinhibits : ∀ s, Inhibits config.inhibitRules s t ↔ _ :=
    fun s => inhibits_instanceWarning (hgen t ht) hname
  constructor
  · intro h hby
    obtain ⟨⟨s, hs, hcritical, hjob⟩, hother, hprobe⟩ := hby
    have hmuted : Muted config.inhibitRules firing t :=
      ⟨s, hs, (hinhibits s).mpr (Or.inl ⟨hcritical, hjob⟩)⟩
    obtain ⟨r, hr, hrt, hinstance⟩ := h hmuted
    rcases (hinhibits r).mp hrt with ⟨hrc, hrj⟩ | ⟨hrf, hrs, _⟩
    · exact hother r hr hrc hrj hinstance
    · exact hprobe hrs r hr hrf hinstance
  · intro hby hmuted
    obtain ⟨s, hs, hst⟩ := hmuted
    -- Muted over the job needs a witness on the instance; muted over the instance is one itself.
    rcases (hinhibits s).mp hst with ⟨hcritical, hjob⟩ | ⟨_, _, hinstance⟩
    · by_contra hnone
      push Not at hnone
      apply hby
      refine ⟨⟨s, hs, hcritical, hjob⟩, ?_, ?_⟩
      · intro r hr hrc hrj
        exact hnone r hr ((hinhibits r).mpr (Or.inl ⟨hrc, hrj⟩))
      · intro hslow r hr hrf hinstance
        exact hnone r hr ((hinhibits r).mpr (Or.inr ⟨hrf, hslow, hinstance⟩)) hinstance
    · exact ⟨s, hs, hst, hinstance⟩

theorem probes_mutedForSameObject_iff : MutedForSameObject probes ↔
    ∀ t ∈ probes, label t "alertname" ∈ instanceWarnings → ¬ Bystander probes t :=
  mutedForSameObject_iff probes (by decide)

end Alertmanager
end ObservabilityStack
