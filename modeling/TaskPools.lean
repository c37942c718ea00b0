import TaskPools.Main
import TaskPools.Rehearsal.Setup
import TaskPools.Status.Slots
import TaskPools.Proofs.Pool.SlotWakeup
import TaskPools.Proofs.Manager.Routing
import TaskPools.Proofs.Manager.ExactlyOnce
import TaskPools.Proofs.Pool.Order
import TaskPools.Proofs.Manager.Owners
import TaskPools.Proofs.GuardedPool.Release
import TaskPools.Proofs.Pool.ClosingWakeup
import TaskPools.Proofs.Pool.Schedule
import TaskPools.Proofs.Pool.QuietState
import TaskPools.Proofs.GuardedPool.Containment
import TaskPools.Proofs.Manager.NotFound
import TaskPools.Proofs.Manager.Terminal
import TaskPools.Proofs.Manager.AfterShutdown
import TaskPools.Proofs.Pool.Settling
import TaskPools.Proofs.Manager.Admission
import TaskPools.Proofs.Pool.Figures
import TaskPools.Proofs.GuardedPool.Statistics
import TaskPools.Proofs.GuardedPool.Waits
import TaskPools.Proofs.Manager.Waits
import TaskPools.Proofs.GuardedPool.Conservation
import TaskPools.Proofs.Manager.Configuration
import TaskPools.Proofs.Manager.Renewal
import TaskPools.Proofs.Manager.Targets
import TaskPools.Proofs.Manager.Renumbering
import TaskPools.Proofs.Manager.Isolation
import TaskPools.Proofs.Pool.Staffing
import TaskPools.Proofs.Pool.Closed
import TaskPools.Proofs.Settings
import TaskPools.Proofs.Manager.Creation
import TaskPools.Proofs.Manager.FailedReload
import TaskPools.Proofs.Manager.Reloading
import TaskPools.Proofs.Manager.Inquiries
import TaskPools.Proofs.Manager.StrictSettings
import TaskPools.Proofs.GuardedPool.Failures
import TaskPools.Proofs.Pool.Running
import TaskPools.Proofs.Fleet.Construction
import TaskPools.Proofs.Settings.Overrides
import TaskPools.Proofs.Settings.Comparison
import TaskPools.Proofs.Status.Slots
