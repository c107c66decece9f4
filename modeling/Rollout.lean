import Rollout.AppConfig
import Rollout.Call
import Rollout.Command.Arguments
import Rollout.Command.Directory
import Rollout.Command.LogLine
import Rollout.Command.Paint
import Rollout.Command.Report
import Rollout.Command.Session
import Rollout.Dict
import Rollout.Duration
import Rollout.Failure
import Rollout.GroupDiff
import Rollout.Id
import Rollout.Json.Binary64
import Rollout.Json.Decoder
import Rollout.Json.Reading
import Rollout.Json.Value
import Rollout.Launch
import Rollout.Log
import Rollout.LogFilter
import Rollout.LogFilter.Directive
import Rollout.Machine
import Rollout.Main
import Rollout.Pass
import Rollout.Plan
import Rollout.Rehearsal.Answer
import Rollout.Rehearsal.Fixtures
import Rollout.Rehearsal.Fleet
import Rollout.Rehearsal.Rules
import Rollout.Release
import Rollout.Renewal
import Rollout.Run
import Rollout.Script
import Rollout.Settings
import Rollout.Signal
import Rollout.Strategy
import Rollout.Text.Alphanumeric
import Rollout.Text.Blank
import Rollout.Text.Columns
import Rollout.Text.Decimal
import Rollout.Text.Emoji
import Rollout.Text.Extending
import Rollout.Text.Pattern
import Rollout.Text.Pieces
import Rollout.Text.Quoted
import Rollout.Text.Ranges
import Rollout.Text.Table
import Rollout.Text.Unprintable
import Rollout.Text.Width
import Rollout.Trace
import Rollout.Wire.Decode
import Rollout.Wire.Encode
import Rollout.World
import Rollout.Proofs.Story
import Rollout.Proofs.Telling
import Rollout.Proofs.Usage
import Rollout.Proofs.LeaseDiscipline
import Rollout.Proofs.Completion
import Rollout.Proofs.Following
import Rollout.Proofs.Planning
import Rollout.Proofs.PlanAgreement
import Rollout.Proofs.Wrapping
import Rollout.Proofs.DictLaws
import Rollout.Proofs.Groups
import Rollout.Proofs.Convergence
import Rollout.Proofs.Pool
import Rollout.Proofs.VolumeBinding
import Rollout.Proofs.Transcript
import Rollout.Proofs.Procedure
import Rollout.Proofs.Tasks
import Rollout.Proofs.Course
import Rollout.Proofs.Position
import Rollout.Proofs.FailStop
import Rollout.Proofs.RollingGate
import Rollout.Proofs.BestEffort
import Rollout.Proofs.Moment
import Rollout.Proofs.Interruption
import Rollout.Proofs.Abandonment
import Rollout.Proofs.Promptness
import Rollout.Proofs.Reading
import Rollout.Proofs.Ending
import Rollout.Proofs.Cancellation
import Rollout.Proofs.MountPlan
import Rollout.Proofs.Sequence
import Rollout.Proofs.Due
import Rollout.Proofs.LeaseFailures
import Rollout.Proofs.FinalStatus
import Rollout.Proofs.RenewalPace
import Rollout.Proofs.LeaseCover
import Rollout.Proofs.Session
import Rollout.Proofs.Quiescence
import Rollout.Proofs.Restart
import Rollout.Proofs.Effects
import Rollout.Proofs.Accounting
import Rollout.Proofs.Quotation
import Rollout.Proofs.Scanning
import Rollout.Proofs.Shown
import Rollout.Proofs.Printing
import Rollout.Proofs.Members
import Rollout.Proofs.Kept
import Rollout.Proofs.Records
import Rollout.Proofs.Sources
import Rollout.Proofs.RoundTrip
import Rollout.Proofs.Foreign
import Rollout.Proofs.Numerals
import Rollout.Proofs.Stamping
import Rollout.Proofs.Resolution
import Rollout.Proofs.Staffing
import Rollout.Proofs.LeftRunning
import Rollout.Proofs.PaymentHint
import Rollout.Proofs.Spelling
import Rollout.Proofs.SafeSettings
import Rollout.Proofs.ChangeSummary
import Rollout.Proofs.ChangeReport
import Rollout.Proofs.Timetable
import Rollout.Proofs.RenewalSchedule
import Rollout.Proofs.Padding
import Rollout.Proofs.Admission
