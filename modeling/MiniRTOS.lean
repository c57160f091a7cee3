import MiniRTOS.Lib.Links
import MiniRTOS.Lib.ByteMemory
import MiniRTOS.Kernel.State
import MiniRTOS.Kernel.Task
import MiniRTOS.Kernel.WaitList
import MiniRTOS.Kernel.Queue
import MiniRTOS.Kernel.Semaphore
import MiniRTOS.Kernel.Mutex
import MiniRTOS.Kernel.EventGroup
import MiniRTOS.Kernel.Notify
import MiniRTOS.Kernel.Layout
import MiniRTOS.Kernel.ListOps
import MiniRTOS.Kernel.TaskInv
import MiniRTOS.Kernel.TaskCalls
import MiniRTOS.Kernel.SchedCalls
import MiniRTOS.Kernel.ObjectCalls
import MiniRTOS.Lib.Runs
import MiniRTOS.Kernel.System
import MiniRTOS.Kernel.SystemInv
import MiniRTOS.Lib.ByteRing
import MiniRTOS.Kernel.Frames
import MiniRTOS.Kernel.QueueDelivery
import MiniRTOS.Kernel.SystemFrames
import MiniRTOS.Kernel.PriorityReturn
import MiniRTOS.Kernel.MutexCalls
import MiniRTOS.Kernel.MutexInv
import MiniRTOS.Kernel.Inheritance
import MiniRTOS.Kernel.Timeouts
import MiniRTOS.Kernel.Context
import MiniRTOS.Kernel.Timer
import MiniRTOS.Kernel.TimerLists
import MiniRTOS.Lib.DeltaList
import MiniRTOS.Kernel.TimerAccuracy
import MiniRTOS.Lib.LittleEndian
import MiniRTOS.Lib.Tiling
import MiniRTOS.Kernel.Heap
import MiniRTOS.Kernel.HeapInv
import MiniRTOS.Kernel.HeapSafety
import MiniRTOS.Kernel.HeapAccounting
import MiniRTOS.Kernel.Watchdog
import MiniRTOS.Kernel.Deletion
import MiniRTOS.Kernel.TaskMoves
import MiniRTOS.Kernel.SemTokens
import MiniRTOS.Kernel.EventWaiters
import MiniRTOS.Kernel.Delays
import MiniRTOS.Lib.BoundedFifo
import MiniRTOS.Kernel.QueueFifo
import MiniRTOS.Kernel.TaskHeap
import MiniRTOS.Kernel.Deferred
import MiniRTOS.Kernel.Dispatch
import MiniRTOS.Kernel.Preemption
import MiniRTOS.Kernel.FailedCalls
import MiniRTOS.Kernel.TaskTable
import MiniRTOS.Kernel.TimeSlicing
import MiniRTOS.Kernel.CpuTime
import MiniRTOS.Kernel.IsrVariants
import MiniRTOS.Kernel.WatchdogTiming
import MiniRTOS.Kernel.TimerExpiries
import MiniRTOS.Kernel.Notifications
import MiniRTOS.Kernel.Mempool
import MiniRTOS.Lib.StableQueue
import MiniRTOS.Kernel.WaitOrder
import MiniRTOS.Lib.HistoryRing
import MiniRTOS.Kernel.Trace
import MiniRTOS.Kernel.TimerFrame
import MiniRTOS.Kernel.TimerTick
import MiniRTOS.Lib.LinkGraph
import MiniRTOS.Kernel.TimerTermination
import MiniRTOS.Kernel.HeapRequests
import MiniRTOS.Kernel.HeapAlignment
import MiniRTOS.Kernel.Selection
import MiniRTOS.Kernel.PriorityChanges
import MiniRTOS.Kernel.PendSv
import MiniRTOS.Kernel.ContextSwitch
import MiniRTOS.Kernel.InitialFrame
import MiniRTOS.Kernel.StackImage
import MiniRTOS.Kernel.QueueRoom
import MiniRTOS.Kernel.TickList
import MiniRTOS.Kernel.PeriodicDelay
import MiniRTOS.Lib.ConsumingPass
import MiniRTOS.Kernel.EventPass
import MiniRTOS.Kernel.EventOrder
import MiniRTOS.Kernel.ObjectDelete
import MiniRTOS.Kernel.HeapRealloc
import MiniRTOS.Kernel.DoubleFree
import MiniRTOS.Kernel.CreateRollback
import MiniRTOS.Lib.BracketedCode
import MiniRTOS.Lib.MaskNesting
import MiniRTOS.Kernel.CriticalPaths
import MiniRTOS.Kernel.CriticalSections
import MiniRTOS.Kernel.CriticalCalls
import MiniRTOS.Kernel.StackMarks
import MiniRTOS.Kernel.PoolBounds
import MiniRTOS.Kernel.WatchdogCallbacks
import MiniRTOS.Kernel.Tickless
import MiniRTOS.Kernel.WaitListOps
import MiniRTOS.Lib.WaitFor
import MiniRTOS.Kernel.LockOrder
import MiniRTOS.Kernel.WaitTurns
import MiniRTOS.Lib.FirstFit
import MiniRTOS.Kernel.HeapFirstFit
import MiniRTOS.Kernel.IdleTask
import MiniRTOS.Kernel.IdleTurn
import MiniRTOS.Kernel.Removal
import MiniRTOS.Kernel.TimerService
import MiniRTOS.Lib.SharedCpu
import MiniRTOS.Kernel.Exceptions
import MiniRTOS.Kernel.Multitasking
import MiniRTOS.Kernel.FirstTask
import MiniRTOS.Kernel.IsrNesting
import MiniRTOS.Kernel.CpuUsage
import MiniRTOS.Lib.IndexedWalk
import MiniRTOS.Kernel.Hooks
import MiniRTOS.Lib.PreemptiveCpu
import MiniRTOS.Kernel.SectionAccesses
