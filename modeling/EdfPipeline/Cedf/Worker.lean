import EdfPipeline.Channel
import EdfPipeline.Cedf.WorkerQueue

/-!
# C-EDF workers

The locals of `worker_loop` and the place in it where a worker is. A place names
the next clock reading or the next access to something shared; the local
computation after it belongs to the same step.
-/

set_option autoImplicit false

namespace EdfPipeline.Cedf

/-- `MediumLatencyTracker` and `LowLatencyTracker`. -/
structure LatencyTracker where
  maxLatencyUs : Nat
  latencies : List Nat
  windowSize : Nat
  deriving DecidableEq, Repr

namespace LatencyTracker

def new : LatencyTracker where
  maxLatencyUs := 0
  latencies := []
  windowSize := 1000

/-- The loop that cuts the history back to the window. -/
def trim (windowSize : Nat) : List Nat → Nat → List Nat × Nat
  | [], maxLatency => ([], maxLatency)
  | removed :: rest, maxLatency =>
      if rest.length + 1 > windowSize then
        trim windowSize rest (if removed = maxLatency then rest.max?.getD 0 else maxLatency)
      else (removed :: rest, maxLatency)

def recordLatency (tracker : LatencyTracker) (latency : Duration) : LatencyTracker :=
  let latencyUs := latency.asMicros % wordBound
  let maxLatency := if latencyUs > tracker.maxLatencyUs then latencyUs else tracker.maxLatencyUs
  let trimmed := trim tracker.windowSize (tracker.latencies ++ [latencyUs]) maxLatency
  { tracker with latencies := trimmed.1, maxLatencyUs := trimmed.2 }

def getP100 (tracker : LatencyTracker) : Duration := Duration.fromMicros tracker.maxLatencyUs

end LatencyTracker

/-- The task in a worker's hands and the class it will be forwarded as. -/
structure Job where
  taskToProcess : QueuedTask
  finalPriority : Priority
  deriving DecidableEq, Repr

def Job.of (task : QueuedTask) : Job where
  taskToProcess := task
  finalPriority := task.priority

structure Window where
  safetyMargin : Duration
  guardThreshold : Duration
  guardStart : Instant
  deriving DecidableEq, Repr

/-- STEP 1 for a Medium task, STEP 1.5 for a Low one. -/
def guardCap : Priority → Duration
  | .low => Duration.fromMillis 10
  | _ => Duration.fromMillis 3

/-- Whether a window is opened for a task popped at `now`: its safety margin and
threshold. -/
def guardWindow (task : QueuedTask) (now : Instant) (p100Latency : Duration) :
    Option (Duration × Duration) :=
  let maxAllowedLatency := task.packet.latencyBudget
  if 0 < p100Latency ∧ p100Latency < maxAllowedLatency then
    let spaceAvailable := maxAllowedLatency - p100Latency
    let remainingBudget := task.packet.latencyBudget - (now - task.packet.timestamp)
    let safetyMargin := 2 * processingDuration task.packet
    let guardThreshold :=
      min (min spaceAvailable (remainingBudget - safetyMargin)) (guardCap task.priority)
    if 0 < guardThreshold.asMicros ∧ safetyMargin < remainingBudget then
      some (safetyMargin, guardThreshold)
    else none
  else none

def guardSlice : Duration := Duration.fromMicros 50

def checkInterval : Duration := Duration.fromMicros 10

structure Processing where
  originalPacket : Packet
  originalPriority : Priority
  processingTime : Duration
  start : Instant
  lastCheck : Instant
  deriving DecidableEq, Repr

namespace Processing

def begin (task : QueuedTask) (start : Instant) : Processing where
  originalPacket := task.packet
  originalPriority := task.priority
  processingTime := task.estimatedProcessing
  start
  lastCheck := start

def CheckDue (processing : Processing) (now : Instant) : Prop :=
  (processing.originalPriority = .medium ∨ processing.originalPriority = .low) ∧
    checkInterval ≤ now - processing.lastCheck

instance (processing : Processing) (now : Instant) : Decidable (processing.CheckDue now) :=
  inferInstanceAs (Decidable (_ ∧ _))

/-- What is left of the processing time, and 1.2 times as much to the nearest
nanosecond. -/
def estimatedRemaining (processing : Processing) (now : Instant) : Duration :=
  processing.processingTime - (now - processing.start)

def safetyMargin (processing : Processing) (now : Instant) : Duration :=
  (6 * processing.estimatedRemaining now + 2) / 5

def remainingBudget (processing : Processing) (now : Instant) : Duration :=
  processing.originalPacket.latencyBudget - (now - processing.originalPacket.timestamp)

end Processing

/-- The loop top and the pop; STEPs 1 and 1.5 up to `guardRecheck`; STEP 2 up to
`restart`; STEPs 3 and 3.5, and STEP 4 at `forward`. At `guardReceived` and
`received` the clock is read for the slack of a received packet; the step after
it pushes the displaced task. -/
inductive Pc where
  | top
  | pop
  | popped (job : Job)
  | guard (job : Job) (now : Instant)
  | guardStart (job : Job) (safetyMargin guardThreshold : Duration)
  | guardLoop (job : Job) (window : Window)
  | guardSlice (job : Job) (window : Window) (remaining : Duration)
  | guardSpin (job : Job) (window : Window) (deadline : Instant)
  | guardPoll (job : Job) (window : Window) (deadline : Instant) (priority : Priority)
  | guardReceived (job : Job) (priority : Priority) (packet : Packet)
  | guardDisplace (job : Job) (task : QueuedTask)
  | guardRecheck (job : Job) (window : Window)
  | process (job : Job)
  | busy (job : Job) (processing : Processing)
  | check (job : Job) (processing : Processing)
  | weigh (job : Job) (processing : Processing) (now : Instant)
  | poll (job : Job) (processing : Processing) (priority : Priority)
  | received (job : Job) (processing : Processing) (priority : Priority) (packet : Packet)
  | displace (job : Job) (processing : Processing) (task : QueuedTask)
  | restart (job : Job) (processing : Processing)
  | finish (job : Job)
  | complete (job : Job) (completionNow : Instant)
  | record (job : Job) (observedLatency : Duration)
  | forward (job : Job)
  | returned
  deriving DecidableEq, Repr

/-- During the busy-wait: the class of the running task and the class of the
packet received to displace it. -/
def Pc.displacing : Pc → Option (Priority × Priority)
  | .received job _ priority _ => some (job.taskToProcess.priority, priority)
  | .displace job _ task => some (job.taskToProcess.priority, task.priority)
  | _ => none

/-- Where the guard loop goes when a class has no packet. A Low task also looks
for Medium packets; only a Medium task gives up on a closed channel. -/
def afterGuardPoll (job : Job) (window : Window) (deadline : Instant) (priority : Priority)
    (error : TryRecvError) : Pc :=
  if job.taskToProcess.priority = .low then
    if priority = .high then .guardPoll job window deadline .medium
    else .guardSpin job window deadline
  else
    match error with
    | .empty => .guardSpin job window deadline
    | .disconnected => .process job

def afterPoll (job : Job) (processing : Processing) (priority : Priority) : Pc :=
  if processing.originalPriority = .low ∧ priority = .high then .poll job processing .medium
  else .busy job processing

end EdfPipeline.Cedf
