import EdfPipeline.Channel
import EdfPipeline.Library.EarliestFirst
import EdfPipeline.Library.TransitionSystem

/-!
# The single EDF scheduler

One thread calls `process_next` again and again while packets are enqueued on
the input channels. A call holds the lock on the pending slots until it has
selected a packet, so only the input channels can change under it.
-/

set_option autoImplicit false

namespace EdfPipeline.Edf

/-- The deadline of a task is that of its packet. -/
structure EDFTask where
  packet : Packet
  deadline : Instant
  due : deadline = packet.deadline
  deriving DecidableEq

def EDFTask.of (packet : Packet) : EDFTask where
  packet
  deadline := packet.timestamp + packet.latencyBudget
  due := rfl

/-- The place of the running call of `process_next`. -/
inductive Call where
  | idle
  | fill (rest : List Priority)
  | busy (packet : Packet) (start : Instant)
  | send (packet : Packet)
  deriving DecidableEq

def Call.hand : Call → List Packet
  | .idle | .fill _ => []
  | .busy packet _ | .send packet => [packet]

/-- The last two fields record history: the packets enqueued on each channel, in
order, and what was in the slot and the channel of each class when the current
call looked at the class. -/
structure State where
  clock : Instant
  inputQueues : PriorityTable (Channel Packet)
  outputQueues : PriorityTable OutputQueue
  pending : PriorityTable (Option EDFTask)
  call : Call
  enqueued : PriorityTable (List Packet)
  examined : PriorityTable (List Packet)

/-- `run` is the next step of the running call, `send` its STEP 5 with the answer of
the output channel. -/
inductive Action where
  | enqueue (priority : Priority) (packet : Packet)
  | tick (elapsed : Duration)
  | processNext
  | run
  | send (room : Bool)

def slot (pending : Option EDFTask) : List Packet := pending.toList.map EDFTask.packet

def keepEarliest (pending : PriorityTable (Option EDFTask)) (earliest : Option (Priority × Instant))
    (priority : Priority) : Option (Priority × Instant) :=
  match pending priority with
  | none => earliest
  | some task =>
      match earliest with
      | none => some (priority, task.deadline)
      | some (_, currentDeadline) =>
          if task.deadline < currentDeadline then some (priority, task.deadline) else earliest

def earliest (pending : PriorityTable (Option EDFTask)) : Option (Priority × Instant) :=
  Priority.all.foldl (keepEarliest pending) none

/-- Simulated processing time: base 0.10 ms. -/
def processingTime (packet : Packet) : Duration := 100000 + extraProcessing packet.len

namespace State

def initial : State where
  clock := 0
  inputQueues := fun _ => .empty
  outputQueues := fun _ => .initial
  pending := fun _ => none
  call := .idle
  enqueued := fun _ => []
  examined := fun _ => []

def fill (state : State) (priority : Priority) (rest : List Priority) : State :=
  let examined := state.examined.set priority
    (slot (state.pending priority) ++ (state.inputQueues priority).queue)
  match state.pending priority with
  | some _ => { state with call := .fill rest, examined }
  | none =>
      match (state.inputQueues priority).tryRecv with
      | .ok (packet, remaining) =>
          { state with
            inputQueues := state.inputQueues.set priority remaining
            pending := state.pending.set priority (some (.of packet))
            call := .fill rest
            examined }
      | .error _ => { state with call := .fill rest, examined }

/-- STEPs 2 and 3. A selected slot is never empty, see `earliest_spec`. -/
def select (state : State) : State :=
  match earliest state.pending with
  | none => { state with call := .idle }
  | some (selectedPriority, _) =>
      match state.pending selectedPriority with
      | none => { state with call := .idle }
      | some task =>
          { state with
            pending := state.pending.set selectedPriority none
            call := .busy task.packet state.clock }

/-- STEP 5: the packet goes to the channel of its own class. -/
def forward (state : State) (packet : Packet) (room : Bool) : State :=
  { state with
    outputQueues := state.outputQueues.set packet.priority
      ((state.outputQueues packet.priority).trySend (fun _ => room) packet)
    call := .idle }

/-- An input channel takes packets of its own class only. -/
def step (state : State) : Action → Option State
  | .enqueue priority packet =>
      if packet.priority = priority then
        some { state with
          inputQueues := state.inputQueues.set priority ((state.inputQueues priority).send packet)
          enqueued := state.enqueued.set priority (state.enqueued priority ++ [packet]) }
      else none
  | .tick elapsed => some { state with clock := state.clock + elapsed }
  | .processNext =>
      match state.call with
      | .idle => some { state with call := .fill Priority.all }
      | _ => none
  | .run =>
      match state.call with
      | .fill (priority :: rest) => some (state.fill priority rest)
      | .fill [] => some state.select
      | .busy packet start =>
          if state.clock - start < processingTime packet then some state
          else some { state with call := .send packet }
      | _ => none
  | .send room =>
      match state.call with
      | .send packet => some (state.forward packet room)
      | _ => none

end State

abbrev run : State → List Action → Option State := TransitionSystem.run State.step

end EdfPipeline.Edf
