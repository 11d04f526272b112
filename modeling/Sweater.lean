import Sweater.Interleaving.Reachability
import Sweater.Interleaving.Census
import Sweater.Machine.Words
import Sweater.Machine.Intervals
import Sweater.Machine.Checked
import Sweater.Machine.Tallies
import Sweater.Threading.Platform
import Sweater.Spread.Plan
import Sweater.Spread.ExactTiling
import Sweater.Threading.Barrier
import Sweater.Threading.FutexSemaphore
import Sweater.Threading.SemaphoreTokens
import Sweater.Threading.SemaphoreWakeups
import Sweater.Threading.RwWord
import Sweater.Threading.FutexRwMutex
import Sweater.Threading.RwExclusion
import Sweater.Threading.RwWakeups
import Sweater.Threading.WriterPreference
import Sweater.Threading.ReadRecursion
import Sweater.Interleaving.CallStacks
import Sweater.Shop.State
import Sweater.Shop.Steps
import Sweater.Shop.WorkAccount
import Sweater.Shop.JoinCompleteness
import Sweater.Shop.Staff
import Sweater.Shop.NoStranding
import Sweater.Shop.IdleMeansDone
import Sweater.Shop.Shutdown
import Sweater.Shop.ItemCounter
import Sweater.Shop.OrderlyRuns
import Sweater.Shop.SmallRuns
import Sweater.Shop.Coverage
import Sweater.Shop.Attendance
import Sweater.Shop.Effort
import Sweater.Shop.Progress
import Sweater.Shop.NestedSpreads
import Sweater.Shop.Refusals
import Sweater.Futures.State
import Sweater.Futures.SlotSemaphore
import Sweater.Futures.Steps
import Sweater.Futures.SlotLife
import Sweater.Futures.Ownership
import Sweater.Futures.OneShot
import Sweater.Futures.Contract
import Sweater.Futures.FailedDispatch
import Sweater.Spread.Chunked
import Sweater.Libuv.Steps
import Sweater.Libuv.Changes
import Sweater.Native.Spread
import Sweater.Spread.SpreadChunked
import Sweater.Spread.SlicedBulk
import Sweater.Shop.FunctorLifetime
import Sweater.Native.InFlight
import Sweater.Threading.RwDormant
import Sweater.Threading.BarrierWait
import Sweater.Pool.Size
import Sweater.Pool.Reconfiguration
import Sweater.Shop.RefusedBulk
import Sweater.Interleaving.Gathering
import Sweater.Libuv.OneCall
import Sweater.Libuv.Parties
import Sweater.Libuv.CriticalSection
import Sweater.Libuv.ChunkAccount
import Sweater.Libuv.StealBack
import Sweater.Libuv.References
import Sweater.Libuv.PendingList
import Sweater.Libuv.Contract
import Sweater.Shop.WakeTree
import Sweater.Threading.SpinWait
import Sweater.Threading.ReadGuards
import Sweater.Threading.TryOperations
import Sweater.Machine.CStrings
import Sweater.Threading.CgroupPath
import Sweater.Machine.Decimals
import Sweater.Threading.QuotaScan
import Sweater.Threading.CondvarSemaphore
import Sweater.Threading.StartHandover
import Sweater.Spread.Clusters
import Sweater.Shop.SetPriority
import Sweater.Interleaving.ReentrantLocks
import Sweater.Threading.ReentrantReads
import Sweater.Interleaving.ForkJoin
import Sweater.Shop.ForkJoinPool
import Sweater.Shop.Destruction
import Sweater.Libuv.ForkJoinCall
import Sweater.Threading.BarrierLifetime
import Sweater.Interleaving.AtomicObjects
import Sweater.Threading.AtomicSemaphores
import Sweater.Threading.AtomicRwLock
import Sweater.Native.WindowsSpreads
import Sweater.Native.WindowsProgress
