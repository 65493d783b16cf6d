import CronSupervisor.Context.Session
import CronSupervisor.Engine.Session
import CronSupervisor.History.Session
import CronSupervisor.Log.Session
import CronSupervisor.Main
import CronSupervisor.Process.Session
import CronSupervisor.Scheduler.Session
import CronSupervisor.Shell.Run
import CronSupervisor.Proofs.Calendar.Date
import CronSupervisor.Proofs.Calendar.Zone
import CronSupervisor.Proofs.Calendar.Zone.Table
import CronSupervisor.Proofs.Config.Validity
import CronSupervisor.Proofs.Context.Lineage
import CronSupervisor.Proofs.Cron.Expression
import CronSupervisor.Proofs.Cron.Layout
import CronSupervisor.Proofs.Cron.RunDays
import CronSupervisor.Proofs.Engine.Course
import CronSupervisor.Proofs.Engine.Timers
import CronSupervisor.Proofs.History.Figures
import CronSupervisor.Proofs.History.Log
import CronSupervisor.Proofs.Job.Callers
import CronSupervisor.Proofs.Job.Resolution
import CronSupervisor.Proofs.Job.Solo
import CronSupervisor.Proofs.Log.Captured
import CronSupervisor.Proofs.Log.Insertion
import CronSupervisor.Proofs.Log.Patterns
import CronSupervisor.Proofs.Pattern.Masking
import CronSupervisor.Proofs.Pattern.Program
import CronSupervisor.Proofs.Pattern.Search
import CronSupervisor.Proofs.Process.Capture
import CronSupervisor.Proofs.Process.Logs
import CronSupervisor.Proofs.Process.Registry
import CronSupervisor.Proofs.Scheduler.Alone
import CronSupervisor.Proofs.Scheduler.Coherence
import CronSupervisor.Proofs.Scheduler.Order
import CronSupervisor.Proofs.Scheduler.Refusals
import CronSupervisor.Proofs.Scheduler.Registration
import CronSupervisor.Proofs.Scheduler.Reports
import CronSupervisor.Proofs.Scheduler.Triggers
import CronSupervisor.Proofs.Scheduler.Twins
import CronSupervisor.Proofs.Scheduler.View
import CronSupervisor.Proofs.Supervisor.Building
import CronSupervisor.Proofs.Supervisor.Listing
import CronSupervisor.Proofs.Supervisor.Reordering
