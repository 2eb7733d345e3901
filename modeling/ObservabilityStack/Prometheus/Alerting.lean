import ObservabilityStack.Lib.Dict

/-!
# `prometheus/rules/alerting.yml`: the alerts there are

An alert is a label set. The rule that fires gives it `alertname` and the labels written in the
rule; every other label (`job`, `instance`, `mountpoint`, …) comes from the series its expression
selects, and nothing is assumed about those. A label an alert does not carry reads as the empty
string, which is how every comparison of labels treats it.

The durations are those of the field `for`, in seconds. What an expression means is modelled where
something is proved about it; for Alertmanager, which never sees one, this table is enough. Of the
table, what is used most is that no name occurs twice, so that the name of an alert is its rule.
-/

set_option autoImplicit false

namespace ObservabilityStack
namespace Prometheus

abbrev Labels : Type := Dict String String

/-- The value of a label. -/
def label (a : Labels) (name : String) : String := a.getD name ""

/-- What the entry `alert` of a rule file says apart from its expression and its annotations. -/
structure AlertingRule where
  alert : String
  forSeconds : ℕ
  severity : String
  slo : Option String
  deriving DecidableEq, Repr

def errorBudgetBurnFast : AlertingRule :=
  ⟨"ErrorBudgetBurnFast", 120, "critical", some "availability"⟩
def errorBudgetBurnSlow : AlertingRule :=
  ⟨"ErrorBudgetBurnSlow", 900, "warning", some "availability"⟩
def highErrorRatio : AlertingRule := ⟨"HighErrorRatio", 600, "warning", none⟩
def latencyBudgetBurnFast : AlertingRule :=
  ⟨"LatencyBudgetBurnFast", 120, "critical", some "latency"⟩
def latencyBudgetBurnSlow : AlertingRule :=
  ⟨"LatencyBudgetBurnSlow", 900, "warning", some "latency"⟩
def trafficDropped : AlertingRule := ⟨"TrafficDropped", 600, "warning", none⟩
def targetDown : AlertingRule := ⟨"TargetDown", 300, "critical", none⟩
def probeFailed : AlertingRule := ⟨"ProbeFailed", 180, "critical", none⟩
def probeSlow : AlertingRule := ⟨"ProbeSlow", 600, "warning", none⟩
def diskSpaceLow : AlertingRule := ⟨"DiskSpaceLow", 1800, "warning", none⟩
def diskWillFillSoon : AlertingRule := ⟨"DiskWillFillSoon", 600, "critical", none⟩
def memoryPressure : AlertingRule := ⟨"MemoryPressure", 900, "warning", none⟩
def prometheusRuleEvaluationFailing : AlertingRule :=
  ⟨"PrometheusRuleEvaluationFailing", 600, "critical", none⟩
def alertmanagerNotificationsFailing : AlertingRule :=
  ⟨"AlertmanagerNotificationsFailing", 600, "critical", none⟩

/-- The rules of all groups, in the order of the file. -/
def alertingRules : List AlertingRule :=
  [errorBudgetBurnFast, errorBudgetBurnSlow, highErrorRatio, latencyBudgetBurnFast,
    latencyBudgetBurnSlow, trafficDropped, targetDown, probeFailed, probeSlow, diskSpaceLow,
    diskWillFillSoon, memoryPressure, prometheusRuleEvaluationFailing,
    alertmanagerNotificationsFailing]

/-- The alert has the name and the severity of one of the rules. -/
def Generated (a : Labels) : Prop :=
  ∃ rule ∈ alertingRules, label a "alertname" = rule.alert ∧ label a "severity" = rule.severity

instance (a : Labels) : Decidable (Generated a) :=
  inferInstanceAs (Decidable (∃ _ ∈ _, _))

/-- The name of an alert decides its severity. -/
theorem Generated.severity {a : Labels} {r : AlertingRule} (ha : Generated a)
    (hr : r ∈ alertingRules) (hname : label a "alertname" = r.alert) :
    label a "severity" = r.severity := by
  have hunique : ∀ p ∈ alertingRules, ∀ q ∈ alertingRules, p.alert = q.alert → p = q := by decide
  obtain ⟨p, hp, hn, hs⟩ := ha
  rw [hs, hunique p hp r hr (hn.symm.trans hname)]

end Prometheus
end ObservabilityStack
