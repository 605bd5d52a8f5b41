import CheckAgent.Fallible
import CheckAgent.Text.Blank
import CheckAgent.Text.Utf8
import CheckAgent.Text.Percent
import CheckAgent.Text.Invisible
import CheckAgent.Text.Quoted
import CheckAgent.Number.Unsigned
import CheckAgent.Number.Binary
import CheckAgent.Number.Decimal
import CheckAgent.Time.Span
import CheckAgent.Time.Calendar
import CheckAgent.Time.Instant
import CheckAgent.Time.StartTime
import CheckAgent.Json.Fault
import CheckAgent.Json.Literal
import CheckAgent.Json.Value
import CheckAgent.Json.Draft
import CheckAgent.Json.Decode
import CheckAgent.Image
import CheckAgent.Check.State
import CheckAgent.Job
import CheckAgent.Run.Spec
import CheckAgent.Retry.Policy
import CheckAgent.Retry.Retryer
import CheckAgent.Container.Error
import CheckAgent.Run.Error
import CheckAgent.Container.Spec
import CheckAgent.Container.Logs
import CheckAgent.Agent.Error
import CheckAgent.Settings
import CheckAgent.Agent.Address
import CheckAgent.Container.Run
import CheckAgent.Intake.Message
import CheckAgent.Intake.Activity
import CheckAgent.Intake.Idle
import CheckAgent.Intake.Lines
import CheckAgent.Shutdown
import CheckAgent.Slots
import CheckAgent.Http.Service
import CheckAgent.AbortList
import CheckAgent.Table
import CheckAgent.Runner.Call
import CheckAgent.Runner.Basic
import CheckAgent.Http.MediaType
import CheckAgent.Api
import CheckAgent.Runner.Serve
import CheckAgent.Runner.Session
import CheckAgent.Runner.Console
import CheckAgent.Intake.Reader
import CheckAgent.Agent.Rehearsal
import CheckAgent.Text.Punycode
import CheckAgent.Http.HostName
import CheckAgent.Http.Url
import CheckAgent.Report
import CheckAgent.Container.LogItem
import CheckAgent.Container.Engine
import CheckAgent.Agent.LogFile
import CheckAgent.Agent.Startup
import CheckAgent.Main
import CheckAgent.Proofs.Retry.Course
import CheckAgent.Proofs.Container.Lifecycle
import CheckAgent.Proofs.Runner.History
import CheckAgent.Proofs.Runner.Consistency
import CheckAgent.Proofs.Runner.Registry
import CheckAgent.Proofs.Runner.Delivery
import CheckAgent.Proofs.Runner.Reports
import CheckAgent.Proofs.Container.Outcome
import CheckAgent.Proofs.Container.Environment
import CheckAgent.Proofs.Shutdown.Order
import CheckAgent.Proofs.Intake.Balance
import CheckAgent.Proofs.Intake.Reading
import CheckAgent.Proofs.Runner.Record
import CheckAgent.Proofs.Runner.Gate
import CheckAgent.Proofs.Intake.Tracking
import CheckAgent.Proofs.Intake.Idleness
import CheckAgent.Proofs.Runner.Callbacks
import CheckAgent.Proofs.Runner.Output
import CheckAgent.Proofs.Runner.Isolation
import CheckAgent.Proofs.Retry.Timetable
import CheckAgent.Proofs.Slots.Draining
import CheckAgent.Proofs.AbortList.Lookups
import CheckAgent.Proofs.AbortList.Overlap
import CheckAgent.Proofs.Runner.Consulting
import CheckAgent.Proofs.Runner.Conclusion
import CheckAgent.Proofs.Intake.Ending
import CheckAgent.Proofs.Runner.Aborts
import CheckAgent.Proofs.Retry.Reporting
import CheckAgent.Proofs.Number.Digits
import CheckAgent.Proofs.Text.Blank
import CheckAgent.Proofs.Time.Calendar
import CheckAgent.Proofs.Time.Writing
import CheckAgent.Proofs.Time.Zones
import CheckAgent.Proofs.Json.Records
import CheckAgent.Proofs.Json.Rendering
import CheckAgent.Proofs.Image.Checktypes
import CheckAgent.Proofs.Job.Decoding
import CheckAgent.Proofs.Job.Encoding
import CheckAgent.Proofs.Runner.Requests
import CheckAgent.Proofs.Number.Neighbours
import CheckAgent.Proofs.Number.Shortest
import CheckAgent.Proofs.Json.Reals
import CheckAgent.Proofs.Check.Forwarding
import CheckAgent.Proofs.Intake.Statistics
import CheckAgent.Proofs.Settings.Limits
import CheckAgent.Proofs.Text.Utf8
import CheckAgent.Proofs.Intake.Framing
import CheckAgent.Proofs.Number.Grammar
import CheckAgent.Proofs.Number.Order
