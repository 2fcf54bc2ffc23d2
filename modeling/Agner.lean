import Agner.Foundations.OrdMap
import Agner.Foundations.MultiMap
import Agner.Foundations.Raising
import Agner.Foundations.RateLimit
import Agner.Foundations.Runs
import Agner.Foundations.Window
import Agner.Foundations.Locking
import Agner.ActorControl
import Agner.Scheduler.Base
import Agner.Scheduler.ExitSignals
import Agner.Scheduler.Topology
import Agner.Scheduler.EventLoop
import Agner.Scheduler.MtRun
import Agner.Scheduler.TimerLoop
import Agner.Scheduler.LocalQueues
import Agner.Supervisor.Operations
import Agner.Supervisor.Effects
import Agner.Supervisor.System
import Agner.Supervisor.PermanentChildren
import Agner.Supervisor.DeadChildren
import Agner.Supervisor.Lifetime
import Agner.Supervisor.Reacting
import Agner.Supervisor.Family
import Agner.Supervisor.Departures
import Agner.Supervisor.Shutdown
import Agner.Supervisor.Orphans
import Agner.Supervisor.Instances
import Agner.Supervisor.Refusals
import Agner.Supervisor.Intensity
import Agner.Supervisor.GroupRestart
import Agner.Supervisor.RestartOrder
import Agner.Supervisor.Suppression
import Agner.Supervisor.OneForOne
import Agner.Supervisor.RestartChild
import Agner.Supervisor.SpawnRace
import Agner.Actor.Mailbox
import Agner.Actor.Runtime
import Agner.Actor.Ownership
import Agner.Actor.TimedReceive
import Agner.Actor.Exceptions
import Agner.Actor.Reentrancy
import Agner.Actor.Traffic
import Agner.Actor.Concurrent
import Agner.Actor.LostWakeup
import Agner.Actor.TimeoutRace
import Agner.Actor.Confluence
import Agner.Deque.ChaseLev
import Agner.Deque.Accounting
import Agner.GenServer.System
import Agner.GenServer.Correlation
import Agner.Actor.Locks
import Agner.GenServer.Serve
import Agner.GenServer.CallLoop
import Agner.GenServer.Deadline
import Agner.Scheduler.Durations
import Agner.Actor.Retries
import Agner.Scheduler.Linking
import Agner.Foundations.Circular
import Agner.Deque.Sequential
import Agner.Deque.ListDeque
import Agner.Foundations.Diamond
import Agner.Task.Coroutines
import Agner.Task.Schedules
import Agner.Task.DirectStyle
import Agner.Deque.Capacity
import Agner.Scheduler.Deterministic
import Agner.Scheduler.DiscreteEvents
import Agner.Foundations.Linearizability
import Agner.Deque.Linearizable
import Agner.Scheduler.Workers
import Agner.Scheduler.WorkSearch
import Agner.Scheduler.Agenda
import Agner.Scheduler.AsioScheduler
import Agner.Scheduler.Exclusive
import Agner.Task.Frames
import Agner.Spec.ActorSystem
import Agner.Spec.Projection
import Agner.Spec.Correspondence
import Agner.Spec.Refinement
import Agner.Actor.ExitReports
import Agner.Actor.ArrivalOrder
