import ThreadKernel.Arena
import ThreadKernel.Clock
import ThreadKernel.Condition
import ThreadKernel.Config
import ThreadKernel.Duration
import ThreadKernel.Fault
import ThreadKernel.Handle
import ThreadKernel.Journal
import ThreadKernel.Kernel.Attempt
import ThreadKernel.Kernel.Basic
import ThreadKernel.Kernel.Dispatch
import ThreadKernel.Kernel.Donation
import ThreadKernel.Kernel.Load
import ThreadKernel.Kernel.Run
import ThreadKernel.Kernel.Scheduling
import ThreadKernel.Kernel.Spawn
import ThreadKernel.Kernel.Timer
import ThreadKernel.Lock
import ThreadKernel.LookupOrder
import ThreadKernel.Name
import ThreadKernel.Primitive
import ThreadKernel.Priority
import ThreadKernel.Processor
import ThreadKernel.Proofs.Attended
import ThreadKernel.Proofs.Calm
import ThreadKernel.Proofs.Clipping
import ThreadKernel.Proofs.Completion
import ThreadKernel.Proofs.ConditionWaits
import ThreadKernel.Proofs.Conservation
import ThreadKernel.Proofs.DeadHolders
import ThreadKernel.Proofs.Destruction
import ThreadKernel.Proofs.DispatchLoop
import ThreadKernel.Proofs.DonationWalk
import ThreadKernel.Proofs.Donors
import ThreadKernel.Proofs.Durations
import ThreadKernel.Proofs.Effects
import ThreadKernel.Proofs.Endings
import ThreadKernel.Proofs.EveryRun
import ThreadKernel.Proofs.Exclusion
import ThreadKernel.Proofs.FairPriority
import ThreadKernel.Proofs.Frame
import ThreadKernel.Proofs.Handlers
import ThreadKernel.Proofs.Handover
import ThreadKernel.Proofs.IdleThread
import ThreadKernel.Proofs.Indistinguishable
import ThreadKernel.Proofs.Inversions
import ThreadKernel.Proofs.Ledger
import ThreadKernel.Proofs.Listings
import ThreadKernel.Proofs.Masking
import ThreadKernel.Proofs.Move
import ThreadKernel.Proofs.Operations
import ThreadKernel.Proofs.Placed
import ThreadKernel.Proofs.Population
import ThreadKernel.Proofs.Preemption
import ThreadKernel.Proofs.Progress
import ThreadKernel.Proofs.ProperUse
import ThreadKernel.Proofs.QueueHistory
import ThreadKernel.Proofs.Reachable
import ThreadKernel.Proofs.Reclamation
import ThreadKernel.Proofs.Rejoining
import ThreadKernel.Proofs.RoundRobin
import ThreadKernel.Proofs.SharedTicks
import ThreadKernel.Proofs.Shift
import ThreadKernel.Proofs.SignalAndContinue
import ThreadKernel.Proofs.Signals
import ThreadKernel.Proofs.SleepHistory
import ThreadKernel.Proofs.Sleeping
import ThreadKernel.Proofs.Slices
import ThreadKernel.Proofs.Sound
import ThreadKernel.Proofs.StableOrder
import ThreadKernel.Proofs.Steps
import ThreadKernel.Proofs.SuspendedWaits
import ThreadKernel.Proofs.Termination
import ThreadKernel.Proofs.Tidy
import ThreadKernel.Proofs.Trying
import ThreadKernel.Proofs.WaitGraph
import ThreadKernel.Proofs.WakeOrder
import ThreadKernel.RankedList
import ThreadKernel.ReadyQueue
import ThreadKernel.Refusal
import ThreadKernel.Semaphore
import ThreadKernel.Session.Request
import ThreadKernel.Session.Snapshot
import ThreadKernel.Session.Transcript
import ThreadKernel.SharedKernel
import ThreadKernel.SleepQueue
import ThreadKernel.Thread
import ThreadKernel.Usage
import ThreadKernel.Word
