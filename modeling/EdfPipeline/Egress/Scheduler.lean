import EdfPipeline.Channel
import EdfPipeline.Library.TransitionSystem

/-!
# Egress DRR

`process_queues` polls the output queues of the classes in order, one
`try_recv` on each in a pass, and records and sends what it receives. Packets
arrive on the queues at any time.
-/

set_option autoImplicit false

namespace EdfPipeline.Egress

/-- A registered socket with its destination address. -/
abbrev Socket : Type := Nat

structure MetricsEvent where
  priority : Priority
  latency : Duration
  deadlineMissed : Bool
  deriving DecidableEq, Repr

def eventCapacity : Nat := 1024

inductive SendOutcome where
  | sent
  | wouldBlock
  | failed
  deriving DecidableEq, Repr

/-- A place in `process_queues`; `rest` are the classes the pass has still to
poll. -/
inductive Pc where
  | top
  | poll (rest : List Priority)
  | measure (rest : List Priority) (priority : Priority) (packet : Packet)
  | judge (rest : List Priority) (priority : Priority) (packet : Packet) (latency : Duration)
  | record (rest : List Priority) (packet : Packet) (event : MetricsEvent)
  | send (rest : List Priority) (packet : Packet) (socket : Socket)
  | returned
  deriving DecidableEq, Repr

def Pc.rest : Pc → Option (List Priority)
  | .top | .returned => none
  | .poll rest | .measure rest _ _ | .judge rest _ _ _ | .record rest _ _ | .send rest _ _ =>
      some rest

/-- `dequeued`, `served` and `left` record history: the packets received so far,
the class the pass received from last, and how many packets each queue held
when the last receive completed. -/
structure State where
  clock : Instant
  running : Bool
  receivers : PriorityTable (Channel Packet)
  lastIds : PriorityTable Nat
  socketMap : PriorityTable (Option (List Socket))
  socketIndices : PriorityTable Nat
  events : List MetricsEvent
  transmitted : List (Socket × Packet)
  pc : Pc
  dequeued : List (Priority × Packet)
  served : Option Priority
  left : PriorityTable Nat

/-- `run` is the next step of `process_queues` and `sendTo` an attempt to send;
`takeEvent` is a step of the metrics thread. -/
inductive Action where
  | arrive (priority : Priority) (packet : Packet)
  | disconnect (priority : Priority)
  | tick (elapsed : Duration)
  | stop
  | takeEvent
  | run
  | sendTo (outcome : SendOutcome)

namespace State

def queue (state : State) (priority : Priority) : List Packet := (state.receivers priority).queue

/-- `process_queues` is entered with these queues and this snapshot of the
sockets. -/
def start (receivers : PriorityTable (Channel Packet))
    (socketMap : PriorityTable (Option (List Socket))) : State where
  clock := 0
  running := true
  receivers
  lastIds := fun _ => wordBound - 1
  socketMap
  socketIndices := fun _ => 0
  events := []
  transmitted := []
  pc := .top
  dequeued := []
  served := none
  left := fun priority => (receivers priority).queue.length

def receive (state : State) (rest : List Priority) (priority : Priority) (packet : Packet)
    (remaining : Channel Packet) : State :=
  let receivers := state.receivers.set priority remaining
  { state with
    receivers
    lastIds := state.lastIds.set priority packet.id
    pc := .measure rest priority packet
    dequeued := state.dequeued ++ [(priority, packet)]
    served := some priority
    left := fun other => (receivers other).queue.length }

/-- `record_packet`, then the choice of a socket. -/
def recordPacket (state : State) (rest : List Priority) (packet : Packet)
    (event : MetricsEvent) : State :=
  let state := { state with events := state.events ++ [event] }
  match state.socketMap event.priority with
  | none | some [] => { state with pc := .poll rest }
  | some (first :: others) =>
      let sockets := first :: others
      let index := state.socketIndices event.priority
      { state with
        socketIndices := state.socketIndices.set event.priority ((index + 1) % sockets.length)
        pc := .send rest packet (sockets.getD (index % sockets.length) first) }

def runStep (state : State) : Option State :=
  match state.pc with
  | .top =>
      if state.running then
        some { state with pc := .poll Priority.all, served := none }
      else some { state with pc := .returned }
  | .poll [] => some { state with pc := .top }
  | .poll (priority :: rest) =>
      match (state.receivers priority).tryRecv with
      | .ok (packet, remaining) => some (state.receive rest priority packet remaining)
      | .error .empty => some { state with pc := .poll rest }
      | .error .disconnected => some { state with pc := .returned }
  | .measure rest priority packet =>
      some { state with pc := .judge rest priority packet (state.clock - packet.timestamp) }
  | .judge rest priority packet latency =>
      let deadlineMissed := decide (state.clock > packet.deadline)
      some { state with pc := .record rest packet { priority, latency, deadlineMissed } }
  | .record rest packet event =>
      -- `send` on the bounded channel waits for room
      if state.events.length < eventCapacity then some (state.recordPacket rest packet event)
      else none
  | .send _ _ _ | .returned => none

def sendStep (state : State) (outcome : SendOutcome) : Option State :=
  match state.pc with
  | .send rest packet socket =>
      match outcome with
      | .sent =>
          some { state with
            transmitted := state.transmitted ++ [(socket, packet)]
            pc := .poll rest }
      | .wouldBlock => some state
      | .failed => some { state with pc := .poll rest }
  | _ => none

def step (state : State) : Action → Option State
  | .arrive priority packet =>
      if (state.receivers priority).disconnected then none
      else some { state with
        receivers := state.receivers.set priority ((state.receivers priority).send packet) }
  | .disconnect priority =>
      some { state with
        receivers := state.receivers.set priority
          { state.receivers priority with disconnected := true } }
  | .tick elapsed => some { state with clock := state.clock + elapsed }
  | .stop => some { state with running := false }
  | .takeEvent =>
      match state.events with
      | [] => none
      | _ :: events => some { state with events }
  | .run => state.runStep
  | .sendTo outcome => state.sendStep outcome

end State

abbrev run : State → List Action → Option State := TransitionSystem.run State.step

end EdfPipeline.Egress
