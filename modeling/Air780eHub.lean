import Air780eHub.Agent.AtMostOnce
import Air780eHub.Delivery.ExactlyOnce
import Air780eHub.Gateway.Connectivity
import Air780eHub.Lib.Dict
import Air780eHub.Lib.Mailbox
import Air780eHub.Modem.Lifetimes
import Air780eHub.Modem.Readers
import Air780eHub.Server.OperationRuns
import Air780eHub.TaskSync.Agreement
import Air780eHub.Schedule.Runner
import Air780eHub.Schedule.BadSchedule
import Air780eHub.Schedule.Moves
import Air780eHub.Schedule.Edits
import Air780eHub.Schedule.Occurrences
import Air780eHub.Schedule.Slots
import Air780eHub.Lib.SlidingWindow
import Air780eHub.Recovery.Model
import Air780eHub.Recovery.Durable
import Air780eHub.Recovery.RateLimit
import Air780eHub.Recovery.Exhausted
import Air780eHub.Radio.FlightMode
import Air780eHub.DataPolicy.Model
import Air780eHub.DataPolicy.RoamingGuard
import Air780eHub.Radio.Automatic
import Air780eHub.At.Client
import Air780eHub.At.Demux
import Air780eHub.Lib.Raising
import Air780eHub.Lib.Relational
import Air780eHub.Lib.Constraints
import Air780eHub.Lib.OtherTables
import Air780eHub.Server.Schema
import Air780eHub.Server.Statements
import Air780eHub.Server.Segments
import Air780eHub.Server.Apply
import Air780eHub.Agent.Payloads
import Air780eHub.Server.ApplySafe
import Air780eHub.Server.CallbackSafe
import Air780eHub.Server.NeverWedges
import Air780eHub.Modem.NothingLost
import Air780eHub.Auth.Model
import Air780eHub.Auth.Revocation
import Air780eHub.Alerts.Effects
import Air780eHub.Alerts.Wiring
import Air780eHub.Alerts.Alternation
import Air780eHub.Alerts.Restarts
import Air780eHub.Restore.Model
import Air780eHub.Restore.Reported
import Air780eHub.Lib.BitPack
import Air780eHub.Pdu.Gsm7
import Air780eHub.Lib.Utf16
import Air780eHub.Pdu.RoundTrip
import Air780eHub.Pdu.Classify
import Air780eHub.Modem.AnyOrder
import Air780eHub.Modem.Complete
import Air780eHub.Modem.PacketData
import Air780eHub.At.Framing
import Air780eHub.At.Prompt
import Air780eHub.Pdu.Split
import Air780eHub.Server.Owed
import Air780eHub.Notify.Rules
import Air780eHub.Notify.Model
import Air780eHub.Notify.Steps
import Air780eHub.Notify.OnePush
import Air780eHub.Notify.Outbox
import Air780eHub.Notify.Settlement
import Air780eHub.Notify.Contract
import Air780eHub.Messages.Threads
import Air780eHub.Server.DispatchPass
import Air780eHub.Discovery.Moves
import Air780eHub.Discovery.Claims
import Air780eHub.Discovery.HeldPorts
import Air780eHub.Discovery.Adoption
import Air780eHub.Lib.Cascade
import Air780eHub.Lib.Scripts
import Air780eHub.Lib.Batches
import Air780eHub.Retention.Pass
import Air780eHub.Retention.Model
import Air780eHub.Retention.Copies
import Air780eHub.Lib.Gregorian
import Air780eHub.Schedule.Calendar
import Air780eHub.Schedule.Firing
import Air780eHub.Schedule.Crontab
import Air780eHub.Schedule.Spellings
import Air780eHub.Pdu.Merged
import Air780eHub.Pdu.Recipient
import Air780eHub.Pdu.Cuts
import Air780eHub.Schedule.Reported
import Air780eHub.Schedule.Refire
import Air780eHub.TaskSync.Replace
import Air780eHub.Pdu.Exceptions
import Air780eHub.Pdu.Salvage
import Air780eHub.Pdu.Garbage
import Air780eHub.Lib.Timeline
import Air780eHub.Pdu.Septets
import Air780eHub.Signal.History
import Air780eHub.Signal.Intervals
import Air780eHub.Agent.HighWater
import Air780eHub.Lib.Base64
import Air780eHub.Messages.Timestamps
import Air780eHub.Messages.Cursor
import Air780eHub.Messages.Paging
import Air780eHub.Messages.Trend
import Air780eHub.Messages.Watermark
import Air780eHub.Modem.Ringing
import Air780eHub.Schedule.Traces
import Air780eHub.Agent.Workers
import Air780eHub.Agent.Disposal
import Air780eHub.Delivery.Resend
import Air780eHub.Lib.Programs
import Air780eHub.Lib.Resume
import Air780eHub.Migrations.Addresses
import Air780eHub.Migrations.Advances
import Air780eHub.Migrations.Opened
import Air780eHub.Lib.Keyed
import Air780eHub.Incidents.Board
import Air780eHub.Status.Filter
import Air780eHub.Status.Rows
import Air780eHub.Status.Tracking
import Air780eHub.Lib.Children
import Air780eHub.Outbound.Delivered
