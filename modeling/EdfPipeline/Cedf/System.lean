import EdfPipeline.Cedf.Worker
import Mathlib.Algebra.Group.Int.Defs

/-!
# The C-EDF scheduler

`dispatcher_loop` and the `worker_loop`s, with a queue for each worker. Workers
take High and Medium packets from the input channels past the dispatcher.
-/

set_option autoImplicit false

namespace EdfPipeline.Cedf

/-- The scan of `find_best_worker`. -/
structure Scan where
  bestWorker : Nat
  bestScore : Int
  deriving DecidableEq, Repr

namespace Scan

def initial : Scan where
  bestWorker := 0
  bestScore := -2 ^ 63

def score (task : QueuedTask) (workerCompletion : Instant) (queueDepth : Nat) : Int :=
  let taskCompletion := workerCompletion + task.estimatedProcessing
  let slackMs : Nat := (task.deadline - taskCompletion) / 1000000
  slackMs - queueDepth * 1000

def keep (scan : Scan) (index : Nat) (score : Int) : Scan :=
  if score > scan.bestScore then { bestWorker := index, bestScore := score } else scan

end Scan

/-- A place in `dispatcher_loop`: its top, the loops over the High channel and over
the other ones, and the two readings `find_best_worker` makes of the queue of
worker `index`. -/
inductive DispatcherPc where
  | top
  | high (now : Instant)
  | lower (now : Instant) (rest : List Priority)
  | completion (now : Instant) (task : QueuedTask) (scan : Scan) (index : Nat)
  | depth (now : Instant) (task : QueuedTask) (scan : Scan) (index : Nat)
      (workerCompletion : Instant)
  | returned
  deriving DecidableEq, Repr

/-- After a packet of this class: the next High packet, or the next iteration. -/
def DispatcherPc.after (now : Instant) : Priority → DispatcherPc
  | .high => .high now
  | _ => .top

structure State (n : Nat) where
  clock : Instant
  running : Bool
  inputQueues : PriorityTable (Channel Packet)
  outputQueues : PriorityTable OutputQueue
  mediumLatencyTracker : LatencyTracker
  lowLatencyTracker : LatencyTracker
  queues : Fin n → WorkerQueue
  workers : Fin n → Pc
  dispatcher : DispatcherPc

/-- `dispatch` and `run` are the next steps of the dispatcher and of a worker, `pop`
is `try_pop` on a non-empty heap and `forward` STEP 4, with the answer of the
output channel. A packet arrives on the input channel of its class. -/
inductive Action (n : Nat) where
  | arrive (packet : Packet)
  | disconnect (priority : Priority)
  | tick (elapsed : Duration)
  | stop
  | dispatch
  | run (worker : Fin n)
  | pop (worker : Fin n) (task : QueuedTask)
  | forward (worker : Fin n) (room : Bool)

namespace State

variable {n : Nat}

def initial (n : Nat) : State n where
  clock := 0
  running := true
  inputQueues := fun _ => .empty
  outputQueues := fun _ => .initial
  mediumLatencyTracker := .new
  lowLatencyTracker := .new
  queues := fun _ => .new 0
  workers := fun _ => .top
  dispatcher := .top

def goto (state : State n) (id : Fin n) (pc : Pc) : State n :=
  { state with workers := Function.update state.workers id pc }

def setQueue (state : State n) (id : Fin n) (queue : WorkerQueue) : State n :=
  { state with queues := Function.update state.queues id queue }

def setInput (state : State n) (priority : Priority) (channel : Channel Packet) : State n :=
  { state with inputQueues := state.inputQueues.set priority channel }

/-- The tracker consulted before a task of this class is guarded. -/
def tracker (state : State n) : Priority → LatencyTracker
  | .low => state.lowLatencyTracker
  | _ => state.mediumLatencyTracker

/-- STEP 3.5. -/
def record (state : State n) (finalPriority : Priority) (observedLatency : Duration) : State n :=
  match finalPriority with
  | .medium =>
      { state with
        mediumLatencyTracker := state.mediumLatencyTracker.recordLatency observedLatency }
  | .low =>
      { state with lowLatencyTracker := state.lowLatencyTracker.recordLatency observedLatency }
  | _ => state

def requeue (state : State n) (id : Fin n) (task : QueuedTask) (pc : Pc) : State n :=
  (state.setQueue id ((state.queues id).push task)).goto id pc

def runWorker (state : State n) (id : Fin n) : Option (State n) :=
  match state.workers id with
  | .top => some (state.goto id (if state.running then .pop else .returned))
  | .pop => if (state.queues id).heap = [] then some (state.goto id .top) else none
  | .popped job =>
      let priority := job.taskToProcess.priority
      if priority = .medium ∨ priority = .low then some (state.goto id (.guard job state.clock))
      else some (state.goto id (.process job))
  | .guard job now =>
      let p100Latency := (state.tracker job.taskToProcess.priority).getP100
      match guardWindow job.taskToProcess now p100Latency with
      | some (safetyMargin, guardThreshold) =>
          some (state.goto id (.guardStart job safetyMargin guardThreshold))
      | none => some (state.goto id (.process job))
  | .guardStart job safetyMargin guardThreshold =>
      some (state.goto id
        (.guardLoop job { safetyMargin, guardThreshold, guardStart := state.clock }))
  | .guardLoop job window =>
      let guardElapsed := state.clock - window.guardStart
      if window.guardThreshold ≤ guardElapsed then some (state.goto id (.process job))
      else some (state.goto id (.guardSlice job window (window.guardThreshold - guardElapsed)))
  | .guardSlice job window remaining =>
      some (state.goto id (.guardSpin job window (state.clock + min remaining guardSlice)))
  | .guardSpin job window deadline =>
      if state.clock < deadline then some (state.goto id (.guardPoll job window deadline .high))
      else some (state.goto id (.guardRecheck job window))
  | .guardPoll job window deadline priority =>
      match (state.inputQueues priority).tryRecv with
      | .ok (packet, remaining) =>
          some ((state.setInput priority remaining).goto id (.guardReceived job priority packet))
      | .error error => some (state.goto id (afterGuardPoll job window deadline priority error))
  | .guardReceived job priority packet =>
      some (state.goto id (.guardDisplace job (.of priority packet state.clock)))
  | .guardDisplace job task =>
      some (state.requeue id job.taskToProcess (.process (.of task)))
  | .guardRecheck job window =>
      let packet := job.taskToProcess.packet
      if packet.latencyBudget - (state.clock - packet.timestamp) ≤ window.safetyMargin then
        some (state.goto id (.process job))
      else some (state.goto id (.guardLoop job window))
  | .process job =>
      some (state.goto id (.busy job (.begin job.taskToProcess state.clock)))
  | .busy job processing =>
      if state.clock - processing.start < processing.processingTime then
        some (state.goto id (.check job processing))
      else some (state.goto id (.finish job))
  | .check job processing =>
      if processing.CheckDue state.clock then
        some (state.goto id (.weigh job { processing with lastCheck := state.clock } state.clock))
      else some (state.goto id (.busy job processing))
  | .weigh job processing now =>
      if processing.safetyMargin state.clock < processing.remainingBudget now then
        some (state.goto id (.poll job processing .high))
      else some (state.goto id (.busy job processing))
  | .poll job processing priority =>
      match (state.inputQueues priority).tryRecv with
      | .ok (packet, remaining) =>
          some ((state.setInput priority remaining).goto id
            (.received job processing priority packet))
      | .error _ => some (state.goto id (afterPoll job processing priority))
  | .received job processing priority packet =>
      some (state.goto id (.displace job processing (.of priority packet state.clock)))
  | .displace job processing task =>
      let estimatedProcessing := processing.estimatedRemaining state.clock
      some (state.requeue id { job.taskToProcess with estimatedProcessing }
        (.restart (.of task) processing))
  | .restart job processing =>
      -- the class and packet the step began with stay those of the first task
      let processingTime := job.taskToProcess.estimatedProcessing
      some (state.goto id (.busy job { processing with processingTime, start := state.clock }))
  | .finish job => some (state.goto id (.complete job state.clock))
  | .complete job completionNow =>
      let observedLatency := completionNow - job.taskToProcess.packet.timestamp
      some ((state.setQueue id
        { state.queues id with estimatedCompletion := completionNow }).goto id
          (.record job observedLatency))
  | .record job observedLatency =>
      some ((state.record job.finalPriority observedLatency).goto id (.forward job))
  | .forward _ | .returned => none

def popWorker (state : State n) (id : Fin n) (task : QueuedTask) : Option (State n) :=
  if state.workers id = .pop then
    ((state.queues id).tryPop (some task)).map fun queue =>
      (state.setQueue id queue).goto id (.popped (.of task))
  else none

def forwardWorker (state : State n) (id : Fin n) (room : Bool) : Option (State n) :=
  match state.workers id with
  | .forward job =>
      let output := (state.outputQueues job.finalPriority).trySend (fun _ => room)
        job.taskToProcess.packet
      some ({ state with
        outputQueues := state.outputQueues.set job.finalPriority output }.goto id .top)
  | _ => none

def dispatch (state : State n) : Option (State n) :=
  match state.dispatcher with
  | .top =>
      some { state with dispatcher := if state.running then .high state.clock else .returned }
  | .high now =>
      match (state.inputQueues .high).tryRecv with
      | .ok (packet, remaining) =>
          some { state.setInput .high remaining with
            dispatcher := .completion now (.of .high packet now) .initial 0 }
      | .error _ => some { state with dispatcher := .lower now [.medium, .low, .bestEffort] }
  | .lower _ [] => some { state with dispatcher := .top }
  | .lower now (priority :: rest) =>
      match (state.inputQueues priority).tryRecv with
      | .ok (packet, remaining) =>
          some { state.setInput priority remaining with
            dispatcher := .completion now (.of priority packet now) .initial 0 }
      | .error _ => some { state with dispatcher := .lower now rest }
  | .completion now task scan index =>
      if place : index < n then
        some { state with
          dispatcher := .depth now task scan index
            (state.queues ⟨index, place⟩).estimatedCompletion }
      else if chosen : scan.bestWorker < n then
        let id : Fin n := ⟨scan.bestWorker, chosen⟩
        some { state.setQueue id ((state.queues id).push task) with
          dispatcher := .after now task.priority }
      else none
  | .depth now task scan index workerCompletion =>
      if place : index < n then
        let score := Scan.score task workerCompletion (state.queues ⟨index, place⟩).depth
        some { state with dispatcher := .completion now task (scan.keep index score) (index + 1) }
      else none
  | .returned => none

def step (state : State n) : Action n → Option (State n)
  | .arrive packet =>
      let channel := state.inputQueues packet.priority
      if channel.disconnected then none
      else some (state.setInput packet.priority (channel.send packet))
  | .disconnect priority =>
      some (state.setInput priority { state.inputQueues priority with disconnected := true })
  | .tick elapsed => some { state with clock := state.clock + elapsed }
  | .stop => some { state with running := false }
  | .dispatch => state.dispatch
  | .run id => state.runWorker id
  | .pop id task => state.popWorker id task
  | .forward id room => state.forwardWorker id room

end State

abbrev run {n : Nat} : State n → List (Action n) → Option (State n) :=
  TransitionSystem.run State.step

end EdfPipeline.Cedf
