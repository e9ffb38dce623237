import EdfPipeline.McEdf.Stages
import EdfPipeline.Library.TransitionSystem

/-!
# The MC-EDF scheduler

`dispatcher_loop`, an `edf_worker_loop` for each EDF and the `reorder_loop`. The
channels between them are unbounded and outlive the threads. The moving averages
only set how long a worker waits for a High task, so that time is left open up
to its bound.
-/

set_option autoImplicit false

namespace EdfPipeline.McEdf

open EarliestFirst

structure Batched where
  task : EDFTask
  deadlineSlack : Duration
  deriving DecidableEq, Repr

/-- A place in `dispatcher_loop`: collecting a batch of High packets, choosing their
channels under the lock, sending each and recording it; then receiving a packet
of each other class and sending its task. -/
inductive DispatcherPc where
  | top
  | collect (now : Instant) (highBatch : List Batched)
  | assign (highBatch : List Batched)
  | send (channels : List (EdfChannel × Batched))
  | recordDistribution (channel : EdfChannel) (deadlineSlack : Duration)
      (rest : List (EdfChannel × Batched))
  | receive (priority : Priority)
  | deliver (task : EDFTask)
  | returned
  deriving DecidableEq

structure State where
  clock : Instant
  running : Bool
  inputQueues : PriorityTable (Channel Packet)
  outputQueues : PriorityTable OutputQueue
  distributionStats : HighDistributionStats
  edfInputs : EdfChannel → PriorityTable (Channel EDFTask)
  workers : EdfChannel → EdfWorker
  edfOutputs : EdfChannel → Channel Packet
  reorder : Reorder
  dispatcher : DispatcherPc

/-- `dispatch`, `run` and `reorder` are the next steps of the dispatcher, a worker and
the re-ordering stage. `pop` pops a non-empty heap, `await` reads the average
arrival time and starts to wait for so long, and `forward` comes with the answer
of the output channel. A packet arrives on the input channel of its class. -/
inductive Action where
  | arrive (packet : Packet)
  | disconnect (priority : Priority)
  | tick (elapsed : Duration)
  | stop
  | dispatch
  | run (channel : EdfChannel)
  | pop (channel : EdfChannel) (task : EDFTask)
  | await (channel : EdfChannel) (timeout : Duration)
  | reorder
  | forward (room : Bool)

def batchLimit : Nat := 32

def maxTimeout : Duration := Duration.fromMicros 50

/-- The channel that carries the packets of a class other than High, in its
input queue of the same class or, for BestEffort, of class Low. -/
def lowerRoute : Priority → EdfChannel × Priority
  | .medium => (.medium, .medium)
  | _ => (.low, .low)

def DispatcherPc.after : Priority → DispatcherPc
  | .high => .receive .medium
  | .medium => .receive .low
  | .low => .receive .bestEffort
  | .bestEffort => .top

namespace State

def initial : State where
  clock := 0
  running := true
  inputQueues := fun _ => .empty
  outputQueues := fun _ => .initial
  distributionStats := .new
  edfInputs := fun channel priority =>
    { queue := [], disconnected := !channel.connected priority }
  workers := .initial
  edfOutputs := fun _ => .empty
  reorder := .initial
  dispatcher := .top

def setWorker (state : State) (channel : EdfChannel) (worker : EdfWorker) : State :=
  { state with workers := Function.update state.workers channel worker }

def setInput (state : State) (priority : Priority) (input : Channel Packet) : State :=
  { state with inputQueues := state.inputQueues.set priority input }

def setEdfInput (state : State) (channel : EdfChannel) (priority : Priority)
    (input : Channel EDFTask) : State :=
  { state with
    edfInputs := Function.update state.edfInputs channel
      ((state.edfInputs channel).set priority input) }

def setEdfOutput (state : State) (channel : EdfChannel) (output : Channel Packet) : State :=
  { state with edfOutputs := Function.update state.edfOutputs channel output }

def sendTask (state : State) (channel : EdfChannel) (priority : Priority) (task : EDFTask) : State :=
  state.setEdfInput channel priority ((state.edfInputs channel priority).send task)

def dispatch (state : State) : Option State :=
  match state.dispatcher with
  | .top =>
      some { state with
        dispatcher := if state.running then .collect state.clock [] else .returned }
  | .collect now highBatch =>
      let dispatcher := if highBatch = [] then .after .high else .assign highBatch
      if highBatch.length < batchLimit then
        match (state.inputQueues .high).tryRecv with
        | .ok (packet, remaining) =>
            let batched : Batched :=
              { task := .of .high packet, deadlineSlack := packet.deadline - now }
            some { state.setInput .high remaining with
              dispatcher := .collect now (highBatch ++ [batched]) }
        | .error _ => some { state with dispatcher }
      else some { state with dispatcher }
  | .assign highBatch =>
      -- the statistics do not change between the choices of a batch
      let channel := state.distributionStats.findBestChannel
      some { state with dispatcher := .send (highBatch.map fun batched => (channel, batched)) }
  | .send [] => some { state with dispatcher := .after .high }
  | .send ((channel, batched) :: rest) =>
      some { state.sendTask channel .high batched.task with
        dispatcher := .recordDistribution channel batched.deadlineSlack rest }
  | .recordDistribution channel deadlineSlack rest =>
      some { state with
        distributionStats :=
          state.distributionStats.recordDistributionWithSlack channel deadlineSlack
        dispatcher := .send rest }
  | .receive priority =>
      match (state.inputQueues priority).tryRecv with
      | .ok (packet, remaining) =>
          some { state.setInput priority remaining with dispatcher := .deliver (.of priority packet) }
      | .error _ => some { state with dispatcher := .after priority }
  | .deliver task =>
      let (channel, priority) := lowerRoute task.priority
      some { state.sendTask channel priority task with dispatcher := .after task.priority }
  | .returned => none

def runWorker (state : State) (channel : EdfChannel) : Option State :=
  let worker := state.workers channel
  match worker.pc with
  | .top =>
      some (state.setWorker channel
        (worker.goto (if state.running then worker.enter else .returned)))
  | .receiveHigh =>
      match (state.edfInputs channel .high).tryRecv with
      | .ok (task, remaining) =>
          some ((state.setEdfInput channel .high remaining).setWorker channel
            ((worker.push [task]).goto .pop))
      | .error _ =>
          some (state.setWorker channel
            (worker.goto (.receiveLower [.medium, .low, .bestEffort] [])))
  | .receiveLower [] receivedTasks =>
      some (state.setWorker channel ((worker.pushHeap receivedTasks).goto .pop))
  | .receiveLower (priority :: rest) receivedTasks =>
      match (state.edfInputs channel priority).tryRecv with
      | .ok (task, remaining) =>
          some ((state.setEdfInput channel priority remaining).setWorker channel
            (worker.goto (.receiveLower (priority :: rest) (receivedTasks ++ [task]))))
      | .error _ => some (state.setWorker channel (worker.goto (.receiveLower rest receivedTasks)))
  | .pop =>
      match worker.highQueue with
      | some (task :: fifo) =>
          some (state.setWorker channel
            { worker with highQueue := some fifo, pc := EdfWorker.afterPop task })
      | some [] => some (state.setWorker channel (worker.goto .top))
      | none => if worker.heap = [] then some (state.setWorker channel (worker.goto .top)) else none
  | .wait task deadline =>
      match (state.edfInputs channel .high).tryRecv with
      | .ok (newTask, remaining) =>
          some ((state.setEdfInput channel .high remaining).setWorker channel
            ((worker.push [newTask, task]).goto .top))
      | .error .disconnected => some (state.setWorker channel (worker.goto (.process task)))
      | .error .empty =>
          if deadline ≤ state.clock then
            some (state.setWorker channel (worker.goto (.process task)))
          else none
  | .process task => some (state.setWorker channel (worker.goto (.busy task state.clock)))
  | .busy task processStart =>
      if state.clock - processStart < processingDuration task.packet then some state
      else some (state.setWorker channel (worker.goto (.output task)))
  | .output task =>
      some ((state.setEdfOutput channel ((state.edfOutputs channel).send task.packet)).setWorker
        channel (worker.goto .top))
  | .timeout _ | .returned => none

def popWorker (state : State) (channel : EdfChannel) (task : EDFTask) : Option State :=
  let worker := state.workers channel
  if worker.pc = .pop ∧ worker.highQueue = none ∧
      Earliest EDFTask.virtualDeadline task worker.heap then
    some (state.setWorker channel
      { worker with heap := worker.heap.erase task, pc := EdfWorker.afterPop task })
  else none

def awaitWorker (state : State) (channel : EdfChannel) (timeout : Duration) : Option State :=
  match (state.workers channel).pc with
  | .timeout task =>
      if timeout ≤ maxTimeout then
        some (state.setWorker channel
          ((state.workers channel).goto (.wait task (state.clock + timeout))))
      else none
  | _ => none

def runReorder (state : State) : Option State :=
  let reorder := state.reorder
  match reorder.pc with
  | .top =>
      let pc := if state.running then .fill EdfChannel.all else .returned
      some { state with reorder := { reorder with pc } }
  | .fill [] => some { state with reorder := { reorder with pc := .select } }
  | .fill (channel :: rest) =>
      match reorder.buffers channel with
      | some _ => some { state with reorder := { reorder with pc := .fill rest } }
      | none =>
          match (state.edfOutputs channel).tryRecv with
          | .ok (packet, remaining) =>
              some { state.setEdfOutput channel remaining with
                reorder := {
                  buffers := Function.update reorder.buffers channel (some (.of channel packet))
                  pc := .fill rest } }
          | .error _ => some { state with reorder := { reorder with pc := .fill rest } }
  | .select => some { state with reorder := reorder.select }
  | .forward _ | .returned => none

def forwardReorder (state : State) (room : Bool) : Option State :=
  match state.reorder.pc with
  | .forward ordered =>
      some { state with
        outputQueues := state.outputQueues.set ordered.priority
          ((state.outputQueues ordered.priority).trySend (fun _ => room) ordered.packet)
        reorder := { state.reorder with pc := .top } }
  | _ => none

def step (state : State) : Action → Option State
  | .arrive packet =>
      let input := state.inputQueues packet.priority
      if input.disconnected then none
      else some (state.setInput packet.priority (input.send packet))
  | .disconnect priority =>
      some (state.setInput priority { state.inputQueues priority with disconnected := true })
  | .tick elapsed => some { state with clock := state.clock + elapsed }
  | .stop => some { state with running := false }
  | .dispatch => state.dispatch
  | .run channel => state.runWorker channel
  | .pop channel task => state.popWorker channel task
  | .await channel timeout => state.awaitWorker channel timeout
  | .reorder => state.runReorder
  | .forward room => state.forwardReorder room

end State

abbrev run : State → List Action → Option State := TransitionSystem.run State.step

end EdfPipeline.McEdf
