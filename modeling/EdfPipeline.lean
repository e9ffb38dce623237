import EdfPipeline.Library.TransitionSystem
import EdfPipeline.Library.ReorderBuffer
import EdfPipeline.Library.EarliestFirst
import EdfPipeline.Library.Ledger
import EdfPipeline.Library.HandOver
import EdfPipeline.Outputs
import EdfPipeline.Ingress.Credit
import EdfPipeline.Ingress.Backpressure
import EdfPipeline.Ingress.Rounds
import EdfPipeline.Edf.EndToEnd
import EdfPipeline.SingleCpu.EarliestDeadline
import EdfPipeline.GedfVd.VirtualDeadline
import EdfPipeline.Gedf.Wakeups
import EdfPipeline.Gedf.Conservation
import EdfPipeline.Cedf.WorkerQueue
import EdfPipeline.Cedf.Preemption
import EdfPipeline.Cedf.DispatcherRound
import EdfPipeline.Cedf.Slices
import EdfPipeline.Cedf.CompletionEstimate
import EdfPipeline.Cedf.Conservation
import EdfPipeline.Cedf.LatencyMaximum
import EdfPipeline.ClassOrder
import EdfPipeline.McEdf.BatchDistribution
import EdfPipeline.McEdf.HighTakesOver
import EdfPipeline.McEdf.Conservation
import EdfPipeline.McEdf.Merge
import EdfPipeline.McEdf.HighFifo
import EdfPipeline.MultiWorker.Delivery
import EdfPipeline.MultiWorker.Fifo
import EdfPipeline.MultiWorker.Backlog
import EdfPipeline.MultiWorker.Balance
import EdfPipeline.MultiWorker.Reordering
import EdfPipeline.MultiWorker.LocalEdf
import EdfPipeline.MultiWorker.Limits
import EdfPipeline.MultiWorker.ProcessingTime
import EdfPipeline.Egress.Drain
import EdfPipeline.Metrics.Isolation
import EdfPipeline.Library.NearestRank
import EdfPipeline.Library.Stash
import EdfPipeline.Library.GeometricClasses
import EdfPipeline.Metrics.LatencyWindow
import EdfPipeline.Metrics.Snapshot
import EdfPipeline.BufferPool.SizeClasses
import EdfPipeline.CommandLine
import EdfPipeline.BudgetAgreement
import EdfPipeline.Pipeline.StatisticsThread
import EdfPipeline.Pipeline.Relay
import EdfPipeline.Pipeline.Refinement
import EdfPipeline.Pipeline.Feed
import EdfPipeline.Pipeline.Shutdown
import EdfPipeline.Pipeline.Capacity
