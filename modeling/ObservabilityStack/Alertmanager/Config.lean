import ObservabilityStack.Prometheus.Alerting
import ObservabilityStack.Python.Text

/-!
# `alertmanager/alertmanager.yml`: matchers, inhibition, routing

The first part says what the three kinds of entry mean to Alertmanager, for any configuration:
when an alert satisfies matchers, when a rule lets one alert mute another, and which node of the
routing tree an alert ends at. The second part is the configuration, entry by entry.

A regular expression in a matcher is anchored at both ends. The ones used here are alternatives
of literal text, some of them followed by `.*`, and that is what a `Pattern` is.

The two parts are kept apart so that a change of the file is a change of the second part only: an
added rule is one more entry of a list, and what a matcher or a rule means stays what it is. The
order of the entries is that of the file, since a routing tree is read from the top.

Labels are a function on names here, with the empty text for a label that is absent, as
Alertmanager reads them; two alerts that both lack a label agree on it. Silences, which an operator
adds by hand, and the grouping of notifications in time are left out.
-/

set_option autoImplicit false

namespace ObservabilityStack
namespace Alertmanager

open Prometheus (Labels label)

/-! ## Matchers

A matcher tests one label. Of the four operators the configuration uses the two that are no
negations. -/

/-- One alternative of an anchored expression. -/
inductive Pattern
  | literal (text : String)
  /-- `text` and then `.*`, where `.` is any character but a line feed -/
  | literalThenAny (text : String)
  deriving DecidableEq, Repr

def Pattern.accepts : Pattern → String → Bool
  | .literal text, value => value == text
  | .literalThenAny text, value =>
      Python.startswith value text && (value.toList.drop text.toList.length).all (· ≠ '\n')

inductive Test
  /-- `="value"` -/
  | equals (value : String)
  /-- `=~"p|q|…"` -/
  | regex (alternatives : List Pattern)
  deriving DecidableEq, Repr

structure Matcher where
  name : String
  test : Test
  deriving DecidableEq, Repr

def Matcher.accepts (m : Matcher) (a : Labels) : Bool :=
  match m.test with
  | .equals value => label a m.name == value
  | .regex alternatives => alternatives.any fun p => p.accepts (label a m.name)

/-! ## Inhibition

A rule that mutes an alert by itself is excluded here and not in the rules. Whether the alert that
mutes is muted in turn makes no difference to Alertmanager, which is why chains have to be thought
about at all. -/

structure InhibitRule where
  sourceMatchers : List Matcher
  targetMatchers : List Matcher
  equal : List String
  deriving DecidableEq, Repr

/-- The rule lets `source` mute `target`. -/
def InhibitRule.mutes (rule : InhibitRule) (source target : Labels) : Bool :=
  rule.sourceMatchers.all (·.accepts source) && rule.targetMatchers.all (·.accepts target) &&
    rule.equal.all fun name => label source name == label target name

/-- `source` is another alert, and some rule lets it mute `target`. -/
def Inhibits (rules : List InhibitRule) (source target : Labels) : Prop :=
  source ≠ target ∧ ∃ rule ∈ rules, rule.mutes source target = true

/-- Some firing alert mutes `target`, whether it is muted itself or not. -/
def Muted (rules : List InhibitRule) (firing : List Labels) (target : Labels) : Prop :=
  ∃ source ∈ firing, Inhibits rules source target

instance (rules : List InhibitRule) (source target : Labels) :
    Decidable (Inhibits rules source target) := inferInstanceAs (Decidable (_ ∧ _))

instance (rules : List InhibitRule) (firing : List Labels) (target : Labels) :
    Decidable (Muted rules firing target) := inferInstanceAs (Decidable (∃ _ ∈ _, _))

/-! ## Routing

The first child that takes an alert gets it, with everything below; no node of the tree says
`continue`. An interval that mutes a node mutes its notifications and not the alert, so an alert
that is routed into a quiet time is lost until it is over, and goes to no other receiver instead. -/

/-- A node of the routing tree; grouping and repetition play no part in where an alert goes. -/
inductive Route
  | node (receiver : String) (matchers : List Matcher) (muteTimeIntervals : List String)
      (routes : List Route)

/-- Where an alert ends up: the receiver, and the intervals that mute the node. -/
structure Destination where
  receiver : String
  muteTimeIntervals : List String
  deriving DecidableEq, Repr

mutual

/-- The node itself rejects the alert, or it goes to the first child that takes it, or stays. -/
def Route.select (a : Labels) : Route → Option Destination
  | .node receiver matchers mute routes =>
      if matchers.all (·.accepts a) then some ((selectFirst a routes).getD ⟨receiver, mute⟩)
      else none

def selectFirst (a : Labels) : List Route → Option Destination
  | [] => none
  | route :: routes =>
      match Route.select a route with
      | some destination => some destination
      | none => selectFirst a routes

end

inductive Weekday
  | monday | tuesday | wednesday | thursday | friday | saturday | sunday
  deriving DecidableEq, Repr

/-- A moment as a time interval sees it, on the clock of its location. -/
structure Moment where
  weekday : Weekday
  minute : ℕ
  minute_lt : minute < 24 * 60
  deriving DecidableEq

/-- An entry of `time_intervals`; no weekday or no time of day is no restriction. -/
structure TimeInterval where
  weekdays : List Weekday
  /-- start and end, in minutes from midnight -/
  times : List (ℕ × ℕ)
  deriving DecidableEq, Repr

def TimeInterval.contains (i : TimeInterval) (now : Moment) : Bool :=
  (i.weekdays.isEmpty || i.weekdays.contains now.weekday) &&
    (i.times.isEmpty || i.times.any fun t => t.1 ≤ now.minute && now.minute < t.2)

/-- A configuration file, as far as it decides who is notified. -/
structure Config where
  route : Route
  inhibitRules : List InhibitRule
  timeIntervals : List (String × List TimeInterval)

/-- One of the named intervals contains the moment. -/
def Config.quiet (config : Config) (names : List String) (now : Moment) : Bool :=
  config.timeIntervals.any fun entry =>
    names.contains entry.1 && entry.2.any fun i => i.contains now

/-- The receiver that is notified of an alert that is not muted, if any is at that moment. -/
def Config.notifies (config : Config) (now : Moment) (a : Labels) : Option String :=
  match Route.select a config.route with
  | some destination =>
      if config.quiet destination.muteTimeIntervals now then none else some destination.receiver
  | none => none

/-! ## The configuration -/

def isCritical : Matcher := ⟨"severity", .equals "critical"⟩
def isWarning : Matcher := ⟨"severity", .equals "warning"⟩
def isTargetDown : Matcher := ⟨"alertname", .equals "TargetDown"⟩
def isProbeFailed : Matcher := ⟨"alertname", .equals "ProbeFailed"⟩
def isProbeSlow : Matcher := ⟨"alertname", .equals "ProbeSlow"⟩

/-- `alertname=~"ErrorBudgetBurn.*|LatencyBudgetBurn.*|HighErrorRatio|TrafficDropped"` -/
def isMetricDerived : Matcher :=
  ⟨"alertname", .regex [.literalThenAny "ErrorBudgetBurn", .literalThenAny "LatencyBudgetBurn",
    .literal "HighErrorRatio", .literal "TrafficDropped"]⟩

/-- `job=~"prometheus|alertmanager"` -/
def isMonitoring : Matcher := ⟨"job", .regex [.literal "prometheus", .literal "alertmanager"]⟩

/-- `inhibit_rules`. -/
def inhibitRules : List InhibitRule :=
  [⟨[isCritical], [isWarning], ["job"]⟩,
   ⟨[isTargetDown], [isMetricDerived], ["job"]⟩,
   ⟨[isProbeFailed], [isProbeSlow], ["instance"]⟩]

/-- `route`. -/
def route : Route :=
  .node "fallback" [] []
    [.node "pager" [isMonitoring] [] [],
     .node "pager" [isCritical] [] [],
     .node "tickets" [isWarning] ["out-of-hours"] []]

/-- `time_intervals`; both entries are on the clock of Moscow. -/
def timeIntervals : List (String × List TimeInterval) :=
  [("out-of-hours",
    [⟨[.saturday, .sunday], []⟩, ⟨[], [(20 * 60, 24 * 60), (0, 9 * 60)]⟩])]

/-- `alertmanager.yml`. -/
def config : Config := ⟨route, inhibitRules, timeIntervals⟩

end Alertmanager
end ObservabilityStack
