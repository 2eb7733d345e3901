import ObservabilityStack.Lib.Transition
import ObservabilityStack.Lib.Dict
import ObservabilityStack.Python.Text
import ObservabilityStack.Loadgen.Scenarios
import ObservabilityStack.Loadgen.Stats
import ObservabilityStack.Lib.Threads
import ObservabilityStack.Loadgen.Driver
import ObservabilityStack.Loadgen.DriverSteps
import ObservabilityStack.Loadgen.Invariants
import ObservabilityStack.Loadgen.Deadlock
import ObservabilityStack.Loadgen.Conservation
import ObservabilityStack.AlertSink.Model
import ObservabilityStack.AlertSink.Store
import ObservabilityStack.AlertSink.Masking
import ObservabilityStack.AlertSink.Answers
import ObservabilityStack.Lib.Lines
import ObservabilityStack.Python.HttpServer
import ObservabilityStack.Python.HttpMessage
import ObservabilityStack.AlertSink.Framing
import ObservabilityStack.Lib.Register
import ObservabilityStack.SampleApp.Faults
import ObservabilityStack.SampleApp.Metrics
import ObservabilityStack.SampleApp.Middleware
import ObservabilityStack.SampleApp.Accounting
import ObservabilityStack.SampleApp.Traces
import ObservabilityStack.Lib.Counter
import ObservabilityStack.Prometheus.ErrorCount
import ObservabilityStack.Alertmanager.Config
import ObservabilityStack.Alertmanager.Inhibition
import ObservabilityStack.Lib.Calendar
import ObservabilityStack.Python.Strftime
import ObservabilityStack.AlertSink.Logging
import ObservabilityStack.Promtail.Timestamp
import ObservabilityStack.AlertSink.Check
import ObservabilityStack.SampleApp.Cardinality
import ObservabilityStack.Grafana.DerivedField
import ObservabilityStack.Grafana.TraceLink
import ObservabilityStack.Lib.Overlap
import ObservabilityStack.Prometheus.BurnRate
import ObservabilityStack.Lib.Bucket
import ObservabilityStack.Loadgen.Headroom
import ObservabilityStack.Loadgen.Incident
import ObservabilityStack.Loadgen.PhaseEntry
import ObservabilityStack.Loadgen.ArmedFaults
import ObservabilityStack.Lib.Sorting
import ObservabilityStack.Loadgen.Percentile
import ObservabilityStack.SampleApp.LatencyCap
import ObservabilityStack.AlertSink.Grammar
import ObservabilityStack.SampleApp.Exclusion
import ObservabilityStack.AlertSink.Nulls
import ObservabilityStack.AlertSink.Table
import ObservabilityStack.AlertSink.Verdict
import ObservabilityStack.Loadgen.Transport
import ObservabilityStack.Lib.Pacer
import ObservabilityStack.Loadgen.Pacing
import ObservabilityStack.Loadgen.NoBurst
import ObservabilityStack.Loadgen.Drift
import ObservabilityStack.Lib.Spans
import ObservabilityStack.Loadgen.Timeline
import ObservabilityStack.Loadgen.Summary
import ObservabilityStack.SampleApp.Catalog
import ObservabilityStack.SampleApp.Service
import ObservabilityStack.SampleApp.InjectedErrors
import ObservabilityStack.SampleApp.Orders
import ObservabilityStack.SampleApp.Durations
import ObservabilityStack.SampleApp.Recovery
import ObservabilityStack.Lib.Monitor
import ObservabilityStack.AlertSink.Drain
import ObservabilityStack.Python.JsonDecoder
import ObservabilityStack.Python.JsonRoundTrip
import ObservabilityStack.AlertSink.Delivery
import ObservabilityStack.Python.JsonLines
import ObservabilityStack.Promtail.LogStream
import ObservabilityStack.Lib.Dated
import ObservabilityStack.Lib.Histogram
import ObservabilityStack.Prometheus.LatencySli
import ObservabilityStack.Lib.Covering
import ObservabilityStack.Prometheus.ErrorBudget
import ObservabilityStack.Prometheus.TrafficDrop
import ObservabilityStack.Prometheus.Detection
import ObservabilityStack.Lib.Accrual
import ObservabilityStack.Loadgen.Catalogue
import ObservabilityStack.Loadgen.ExpectedAlerts
import ObservabilityStack.Deployment.Model
import ObservabilityStack.Deployment.Exchanges
import ObservabilityStack.Deployment.Summary
import ObservabilityStack.Deployment.Blame
import ObservabilityStack.Loadgen.Rounded
