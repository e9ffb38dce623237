import EdfPipeline.Channel
import EdfPipeline.Duration
import EdfPipeline.Library.EarliestFirst

/-!
# The stages of MC-EDF

Tasks, the statistics by which the dispatcher spreads High packets over the
three EDFs, the state of an `edf_worker_loop` and that of the `reorder_loop`.
-/

set_option autoImplicit false

namespace EdfPipeline.McEdf

open EarliestFirst

inductive EdfChannel where
  | high
  | medium
  | low
  deriving DecidableEq, Repr

namespace EdfChannel

def all : List EdfChannel := [.high, .medium, .low]

/-- The entry of `priorities` for a channel. -/
def priority : EdfChannel → Priority
  | .high => .high
  | .medium => .medium
  | .low => .low

/-- Whether the input queue of an EDF for a class has a sender. -/
def connected : EdfChannel → Priority → Bool
  | _, .high => true
  | .medium, .medium | .low, .medium => true
  | .low, .low => true
  | _, _ => false

end EdfChannel

structure EDFTask where
  packet : Packet
  virtualDeadline : Instant
  realDeadline : Instant
  priority : Priority
  deriving DecidableEq, Repr

/-- 0.025 is not a double. -/
def virtualDeadlineScale : Priority → ℚ
  | .high => Binary64.nearest (1 / 40)
  | .medium => 1 / 2
  | _ => 1

/-- The task the dispatcher makes of a packet of input channel `priority`. -/
def EDFTask.of (priority : Priority) (packet : Packet) : EDFTask where
  packet
  virtualDeadline := packet.timestamp + packet.latencyBudget.mulF64 (virtualDeadlineScale priority)
  realDeadline := packet.deadline
  priority

structure HighDistributionStats where
  packetCount : EdfChannel → Nat
  deadlineSum : EdfChannel → Duration

namespace HighDistributionStats

def new : HighDistributionStats where
  packetCount := fun _ => 0
  deadlineSum := fun _ => 0

def score (stats : HighDistributionStats) (channel : EdfChannel) : Nat :=
  stats.packetCount channel * 1000 + (stats.deadlineSum channel).asMicros

/-- The first channel with the least score, if that is below the largest `i64`. -/
def findBestChannel (stats : HighDistributionStats) : EdfChannel :=
  (EdfChannel.all.foldl
    (fun best channel =>
      if stats.score channel < best.2 then (channel, stats.score channel) else best)
    (.high, 2 ^ 63 - 1)).1

def recordDistributionWithSlack (stats : HighDistributionStats) (channel : EdfChannel)
    (deadlineSlack : Duration) : HighDistributionStats where
  packetCount := Function.update stats.packetCount channel (stats.packetCount channel + 1)
  deadlineSum := Function.update stats.deadlineSum channel (stats.deadlineSum channel + deadlineSlack)

end HighDistributionStats

/-! ## The worker of an EDF -/

/-- A place in `edf_worker_loop`, named by the next access to something shared
or the next clock reading. -/
inductive WorkerPc where
  | top
  | receiveHigh
  | receiveLower (rest : List Priority) (receivedTasks : List EDFTask)
  | pop
  | timeout (task : EDFTask)
  | wait (task : EDFTask) (deadline : Instant)
  | process (task : EDFTask)
  | busy (task : EDFTask) (processStart : Instant)
  | output (task : EDFTask)
  | returned
  deriving DecidableEq

/-- `heap` and `highQueue` are only used by the worker itself. -/
structure EdfWorker where
  highQueue : Option (List EDFTask)
  heap : List EDFTask
  pc : WorkerPc
  deriving DecidableEq

namespace EdfWorker

def initial : EdfChannel → EdfWorker
  | .high => { highQueue := some [], heap := [], pc := .top }
  | _ => { highQueue := none, heap := [], pc := .top }

def goto (worker : EdfWorker) (pc : WorkerPc) : EdfWorker := { worker with pc }

/-- Add tasks to the FIFO queue if there is one, and to the heap otherwise. -/
def push (worker : EdfWorker) (tasks : List EDFTask) : EdfWorker :=
  match worker.highQueue with
  | some fifo => { worker with highQueue := some (fifo ++ tasks) }
  | none => { worker with heap := tasks ++ worker.heap }

def pushHeap (worker : EdfWorker) (tasks : List EDFTask) : EdfWorker :=
  { worker with heap := tasks ++ worker.heap }

/-- The place after the loop top: a FIFO queue with tasks is not received for. -/
def enter (worker : EdfWorker) : WorkerPc :=
  if worker.highQueue.getD [] = [] then .receiveHigh
  else .receiveLower [.medium, .low, .bestEffort] []

/-- Only a task that is not High is held back for High ones. -/
def afterPop (task : EDFTask) : WorkerPc :=
  if task.priority = .high then .process task else .timeout task

end EdfWorker

/-! ## The re-ordering stage -/

structure OrderedPacket where
  packet : Packet
  priority : Priority
  deadline : Instant
  deriving DecidableEq, Repr

/-- What the re-ordering stage makes of a packet of a channel. -/
def OrderedPacket.of (channel : EdfChannel) (packet : Packet) : OrderedPacket where
  packet
  priority := channel.priority
  deadline := packet.deadline

inductive ReorderPc where
  | top
  | fill (rest : List EdfChannel)
  | select
  | forward (ordered : OrderedPacket)
  | returned
  deriving DecidableEq, Repr

structure Reorder where
  buffers : EdfChannel → Option OrderedPacket
  pc : ReorderPc

namespace Reorder

def initial : Reorder where
  buffers := fun _ => none
  pc := .top

def keepEarliest (reorder : Reorder) (earliest : Option (EdfChannel × Instant))
    (channel : EdfChannel) : Option (EdfChannel × Instant) :=
  match reorder.buffers channel with
  | none => earliest
  | some ordered =>
      match earliest with
      | none => some (channel, ordered.deadline)
      | some (_, currentDeadline) =>
          if ordered.deadline < currentDeadline then some (channel, ordered.deadline) else earliest

def earliest (reorder : Reorder) : Option (EdfChannel × Instant) :=
  EdfChannel.all.foldl reorder.keepEarliest none

/-- Take the earliest packet out of its buffer. A selected buffer is never empty. -/
def select (reorder : Reorder) : Reorder :=
  match reorder.earliest with
  | none => { reorder with pc := .top }
  | some (channel, _) =>
      match reorder.buffers channel with
      | none => { reorder with pc := .top }
      | some ordered =>
          { buffers := Function.update reorder.buffers channel none, pc := .forward ordered }

end Reorder

end EdfPipeline.McEdf
