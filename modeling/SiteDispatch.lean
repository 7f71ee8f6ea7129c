import SiteDispatch.Adaptation.Index
import SiteDispatch.Adaptation.Round
import SiteDispatch.Battery
import SiteDispatch.Calendar.Day
import SiteDispatch.Calendar.Slot
import SiteDispatch.Calendar.Zone
import SiteDispatch.Calendar.ZoneTable
import SiteDispatch.Device.Commit
import SiteDispatch.Device.Config
import SiteDispatch.Device.Id
import SiteDispatch.Device.Offer
import SiteDispatch.Device.State
import SiteDispatch.Device.Storage
import SiteDispatch.Device.Store
import SiteDispatch.Device.Upkeep
import SiteDispatch.Flexibility.Basic
import SiteDispatch.Flexibility.Validity
import SiteDispatch.Forecast.Basic
import SiteDispatch.Forecast.Engine
import SiteDispatch.Forecast.Profile
import SiteDispatch.Forecast.Resample
import SiteDispatch.Halt
import SiteDispatch.Interval
import SiteDispatch.Json.Basic
import SiteDispatch.Json.Decoder
import SiteDispatch.Json.Printer
import SiteDispatch.Json.Reader
import SiteDispatch.Monitoring
import SiteDispatch.OrderedMap.Basic
import SiteDispatch.Planning.Allocation
import SiteDispatch.Planning.Optimization
import SiteDispatch.Planning.Slack
import SiteDispatch.Planning.Walk
import SiteDispatch.Profile
import SiteDispatch.Proofs.Adaptation.Agreement
import SiteDispatch.Proofs.Adaptation.Measurement
import SiteDispatch.Proofs.Adaptation.Rollback
import SiteDispatch.Proofs.Adaptation.Round
import SiteDispatch.Proofs.Calendar.Day
import SiteDispatch.Proofs.Calendar.Forward
import SiteDispatch.Proofs.Calendar.Grid
import SiteDispatch.Proofs.Calendar.Partition
import SiteDispatch.Proofs.Device.Acceptance
import SiteDispatch.Proofs.Device.Agreement
import SiteDispatch.Proofs.Device.ChargeTarget
import SiteDispatch.Proofs.Device.Commit
import SiteDispatch.Proofs.Device.Correction
import SiteDispatch.Proofs.Device.Coverage
import SiteDispatch.Proofs.Device.Days
import SiteDispatch.Proofs.Device.Drive
import SiteDispatch.Proofs.Device.Elapsed
import SiteDispatch.Proofs.Device.Integrity
import SiteDispatch.Proofs.Device.Limits
import SiteDispatch.Proofs.Device.Listing
import SiteDispatch.Proofs.Device.Offer
import SiteDispatch.Proofs.Device.Ordinary
import SiteDispatch.Proofs.Device.Past
import SiteDispatch.Proofs.Device.Planned
import SiteDispatch.Proofs.Device.Prune
import SiteDispatch.Proofs.Device.Reachable
import SiteDispatch.Proofs.Device.Repair
import SiteDispatch.Proofs.Device.RepairPass
import SiteDispatch.Proofs.Device.Requests
import SiteDispatch.Proofs.Device.Restart
import SiteDispatch.Proofs.Device.Timeline
import SiteDispatch.Proofs.Device.WellFormed
import SiteDispatch.Proofs.Device.Windows
import SiteDispatch.Proofs.Flexibility.Past
import SiteDispatch.Proofs.Flexibility.Refusal
import SiteDispatch.Proofs.Flexibility.Residual
import SiteDispatch.Proofs.Flexibility.Validity
import SiteDispatch.Proofs.Json.Decoder
import SiteDispatch.Proofs.Json.RoundTrip
import SiteDispatch.Proofs.OrderedMap.Lookup
import SiteDispatch.Proofs.OrderedMap.StepFunction
import SiteDispatch.Proofs.Planning.Admission
import SiteDispatch.Proofs.Planning.Choice
import SiteDispatch.Proofs.Planning.Delivery
import SiteDispatch.Proofs.Planning.Deviation
import SiteDispatch.Proofs.Planning.Draft
import SiteDispatch.Proofs.Planning.Entry
import SiteDispatch.Proofs.Planning.Rounds
import SiteDispatch.Proofs.Planning.Slack
import SiteDispatch.Proofs.Planning.Walk
import SiteDispatch.Proofs.Profile.Compress
import SiteDispatch.Proofs.Profile.Hops
import SiteDispatch.Proofs.Profile.Integral
import SiteDispatch.Proofs.Queue.History
import SiteDispatch.Proofs.Queue.Pending
import SiteDispatch.Proofs.Queue.RateLimit
import SiteDispatch.Proofs.Scheduler.Commitment
import SiteDispatch.Proofs.Scheduler.Frame
import SiteDispatch.Proofs.Scheduler.Publication
import SiteDispatch.Proofs.Scheduler.Requeue
import SiteDispatch.Proofs.Scheduler.Startup
import SiteDispatch.Proofs.Scheduler.Targets
import SiteDispatch.Proofs.Snapshot.Codec
import SiteDispatch.Proofs.Snapshot.Newest
import SiteDispatch.Proofs.Transport.Fanout
import SiteDispatch.Proofs.Transport.Interleaving
import SiteDispatch.Proofs.Transport.Local
import SiteDispatch.Publication
import SiteDispatch.Quantity
import SiteDispatch.Quantity.Decimal
import SiteDispatch.Queue.Basic
import SiteDispatch.Queue.Worker
import SiteDispatch.Schedule.Device
import SiteDispatch.Schedule.Public
import SiteDispatch.Scheduler.Announcement
import SiteDispatch.Scheduler.Basic
import SiteDispatch.Scheduler.Commitment
import SiteDispatch.Scheduler.Compliance
import SiteDispatch.Scheduler.Event
import SiteDispatch.Scheduler.Periodic
import SiteDispatch.Scheduler.Run
import SiteDispatch.Scheduler.State
import SiteDispatch.Site.Basic
import SiteDispatch.Site.Metering
import SiteDispatch.Snapshot.Codec
import SiteDispatch.Snapshot.Directory
import SiteDispatch.Snapshot.File
import SiteDispatch.Task
import SiteDispatch.Transport.Basic
import SiteDispatch.Transport.Local
import SiteDispatch.Transport.Recorded
import SiteDispatch.Transport.Retrieval
