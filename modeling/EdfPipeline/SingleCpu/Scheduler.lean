import EdfPipeline.Edf.Scheduler

/-!
# The single-CPU EDF scheduler

One thread calls `process_next` again and again. It reads the sockets itself,
and those of a class only when the class has no task left. Its tasks are those
of the EDF scheduler. Sockets may be registered at any time, except while they
are being read.
-/

set_option autoImplicit false

namespace EdfPipeline.SingleCpu

open Edf (EDFTask)

structure SocketConfig where
  socket : Nat
  latencyBudget : Duration
  deriving DecidableEq, Repr

/-- What `recv_from` reports. -/
inductive RecvOutcome where
  | datagram (payload : List UInt8)
  | wouldBlock
  | failed
  deriving DecidableEq, Repr

/-- The classes `process_next` serves. -/
def priorities : List Priority := [.high, .medium, .low]

/-- `datagram_size_hint` never reports that there is nothing to read. -/
def datagramSizeHint (available : Option Nat) : Nat :=
  match available with
  | some bytes => if 0 < bytes then bytes else maxPacketSize
  | none => maxPacketSize

/-- The place of the running call of `process_next`: STEP 1 with the classes to come;
in `refill_edf`, with the sockets to come, before `running` is read and before
`recv_from`; STEPs 2 and 3; STEP 4; STEP 5. -/
inductive Call where
  | idle
  | refill (rest : List Priority)
  | next (priority : Priority) (sockets : List SocketConfig) (rest : List Priority)
  | receive (priority : Priority) (config : SocketConfig) (sockets : List SocketConfig)
      (rest : List Priority)
  | select
  | busy (packet : Packet) (start : Instant)
  | send (packet : Packet)
  deriving DecidableEq

def Call.hand : Call → List Packet
  | .busy packet _ | .send packet => [packet]
  | _ => []

/-- `refill_edf` holds the lock on the socket configurations. -/
def Call.holdsConfigs : Call → Bool
  | .next _ _ _ | .receive _ _ _ _ => true
  | _ => false

/-- `running` is the scheduler's own flag, which nothing clears. -/
structure State where
  clock : Instant
  nextPacketId : Nat
  running : Bool
  edfQueues : PriorityTable (List EDFTask)
  socketConfigs : PriorityTable (List SocketConfig)
  outputQueues : PriorityTable OutputQueue
  call : Call

/-- `run` is the next step of the running call, `recv` a read in `refill_edf`, after
`FIONREAD` has answered, and `send` STEP 5 with the answer of the output channel. -/
inductive Action where
  | addSocket (socket : Nat) (priority : Priority) (latencyBudget : Duration)
  | tick (elapsed : Duration)
  | processNext
  | run
  | recv (available : Option Nat) (outcome : RecvOutcome)
  | send (room : Bool)

def keepEarliest (edfQueues : PriorityTable (List EDFTask)) (earliest : Option (Priority × Instant))
    (priority : Priority) : Option (Priority × Instant) :=
  match (edfQueues priority).head? with
  | none => earliest
  | some task =>
      match earliest with
      | none => some (priority, task.deadline)
      | some (_, currentDeadline) =>
          if task.deadline < currentDeadline then some (priority, task.deadline) else earliest

/-- STEP 2. -/
def earliest (edfQueues : PriorityTable (List EDFTask)) : Option (Priority × Instant) :=
  priorities.foldl (keepEarliest edfQueues) none

/-- Simulated processing time: base 0.10 ms. -/
def processingTime (packet : Packet) : Duration := 100000 + extraProcessing packet.len

namespace State

def initial : State where
  clock := 0
  nextPacketId := 0
  running := true
  edfQueues := fun _ => []
  socketConfigs := fun _ => []
  outputQueues := fun _ => .initial
  call := .idle

/-- The packet made of a datagram read now. -/
def packet (state : State) (priority : Priority) (config : SocketConfig) (payload : List UInt8) :
    Packet :=
  Packet.fromBuffer state.nextPacketId state.clock priority payload config.latencyBudget

def pushBack (state : State) (priority : Priority) (task : EDFTask) : State :=
  { state with edfQueues := state.edfQueues.set priority (state.edfQueues priority ++ [task]) }

/-- STEPs 2 and 3. A selected queue is never empty, see `earliest_spec`. -/
def select (state : State) : State :=
  match earliest state.edfQueues with
  | none => { state with call := .idle }
  | some (selectedPriority, _) =>
      match state.edfQueues selectedPriority with
      | [] => { state with call := .idle }
      | task :: rest =>
          { state with
            edfQueues := state.edfQueues.set selectedPriority rest
            call := .busy task.packet state.clock }

/-- STEP 5: the packet goes to the channel of its own class. -/
def forward (state : State) (packet : Packet) (room : Bool) : State :=
  { state with
    outputQueues := state.outputQueues.set packet.priority
      ((state.outputQueues packet.priority).trySend (fun _ => room) packet)
    call := .idle }

def runCall (state : State) : Option State :=
  match state.call with
  | .refill [] => some { state with call := .select }
  | .refill (priority :: rest) =>
      if state.edfQueues priority = [] then
        some { state with call := .next priority (state.socketConfigs priority) rest }
      else some { state with call := .refill rest }
  | .next _ [] rest => some { state with call := .refill rest }
  | .next priority (config :: sockets) rest =>
      if state.running then some { state with call := .receive priority config sockets rest }
      else some { state with call := .refill rest }
  | .select => some state.select
  | .busy packet start =>
      if state.clock - start < processingTime packet then some state
      else some { state with call := .send packet }
  | .idle | .receive _ _ _ _ | .send _ => none

/-- An empty datagram is skipped like a socket with nothing to read. -/
def recv (state : State) (available : Option Nat) (outcome : RecvOutcome) : Option State :=
  match state.call with
  | .receive priority config sockets rest =>
      let state := { state with call := .next priority sockets rest }
      if datagramSizeHint available = 0 then some state
      else
        match outcome with
        | .datagram (byte :: bytes) =>
            some { state.pushBack priority (.of (state.packet priority config (byte :: bytes))) with
              nextPacketId := state.nextPacketId + 1 }
        | .datagram [] | .wouldBlock | .failed => some state
  | _ => none

def step (state : State) : Action → Option State
  | .addSocket socket priority latencyBudget =>
      if state.call.holdsConfigs then none
      else
        some { state with
          socketConfigs := state.socketConfigs.set priority
            (state.socketConfigs priority ++ [{ socket, latencyBudget }]) }
  | .tick elapsed => some { state with clock := state.clock + elapsed }
  | .processNext =>
      match state.call with
      | .idle => some { state with call := .refill priorities }
      | _ => none
  | .run => state.runCall
  | .recv available outcome => state.recv available outcome
  | .send room =>
      match state.call with
      | .send packet => some (state.forward packet room)
      | _ => none

end State

abbrev run : State → List Action → Option State := TransitionSystem.run State.step

end EdfPipeline.SingleCpu
