import TimeSync.Main
import TimeSync.Proofs.Scheduler.Coupling
import TimeSync.Proofs.Scheduler.QueueStatus
import TimeSync.Proofs.Scheduler.Cancellation
import TimeSync.Proofs.Scheduler.Callbacks
import TimeSync.Proofs.Scheduler.Grid
import TimeSync.Proofs.Ntp.Acceptance
import TimeSync.Proofs.Pool.Candidates
import TimeSync.Proofs.Pool.Cooldown
import TimeSync.Proofs.Pool.Ranking
import TimeSync.Proofs.Sync.Calls
import TimeSync.Proofs.Sync.Published
import TimeSync.Proofs.Ntp.Accuracy
import TimeSync.Proofs.Scheduler.EngineTimeline
import TimeSync.Proofs.Ntp.Codec
import TimeSync.Proofs.Scheduler.OneWorker
import TimeSync.Proofs.Scheduler.Endings
import TimeSync.Proofs.Sync.Accounting
import TimeSync.Proofs.Scheduler.WakeUps
import TimeSync.Proofs.Scheduler.Joining
import TimeSync.Proofs.Scheduler.Nesting
import TimeSync.Proofs.Scheduler.Rearming
import TimeSync.Proofs.Scheduler.StandingClock
import TimeSync.Proofs.Scheduler.Independence
import TimeSync.Proofs.Sync.Asking
import TimeSync.Proofs.Sync.Tally
import TimeSync.Proofs.Sync.Recovery
import TimeSync.Proofs.Sync.Failover
import TimeSync.Proofs.Sync.Replacement
import TimeSync.Proofs.Json.Document
import TimeSync.Proofs.Json.Numbers
import TimeSync.Proofs.Json.Records
import TimeSync.Proofs.Json.RoundTrip
import TimeSync.Proofs.Ntp.Memory
import TimeSync.Proofs.Settings.EndpointText
import TimeSync.Proofs.Settings.Overlay
import TimeSync.Proofs.Scheduler.CancelAnswers
import TimeSync.Proofs.Pool.Entries
import TimeSync.Proofs.Ntp.Nearest
import TimeSync.Proofs.Stopwatch.Line
