import EdgeRuntime.Concurrent.Outline
import EdgeRuntime.Common.Error
import EdgeRuntime.Common.CheckedMath
import EdgeRuntime.Process.Identity
import EdgeRuntime.Sync.SharedAtomic
import EdgeRuntime.Sync.OwnerSnapshot
import EdgeRuntime.Queue.Layout
import EdgeRuntime.Queue.Program
import EdgeRuntime.Queue.Operations
import EdgeRuntime.Queue.World
import EdgeRuntime.Queue.Invariant
import EdgeRuntime.Sync.AccessRules
import EdgeRuntime.Concurrent.Schedule
import EdgeRuntime.Queue.Drain
import EdgeRuntime.Channel.Recovery
import EdgeRuntime.Channel.Bounds
import EdgeRuntime.Pool.Open
import EdgeRuntime.Supervisor.Attachment
import EdgeRuntime.Queue.Deaths
import EdgeRuntime.Channel.Stall
import EdgeRuntime.Channel.Deadline
import EdgeRuntime.Channel.Missed
import EdgeRuntime.Supervisor.Children
import EdgeRuntime.Queue.Status
import EdgeRuntime.Queue.Failures
import EdgeRuntime.Sync.Linearization
import EdgeRuntime.Supervisor.Output
import EdgeRuntime.Channel.IdentityRecord
import EdgeRuntime.Queue.Positions
import EdgeRuntime.Integrity.Corruption
import EdgeRuntime.Concurrent.Script
import EdgeRuntime.Pool.Census
import EdgeRuntime.Control.Instances
