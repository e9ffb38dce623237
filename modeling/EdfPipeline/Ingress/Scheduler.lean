import EdfPipeline.Channel
import EdfPipeline.Library.TransitionSystem

/-!
# Ingress DRR

`process_sockets` visits the active flows in turn. A visit adds the quantum to
the flow's deficit and reads datagrams against it; what is left is stored for
the next visit. Sockets may be registered at any time; the round in progress
works on its snapshot.
-/

set_option autoImplicit false

namespace EdfPipeline.Ingress

abbrev Socket : Type := Nat

structure FlowState where
  quantum : Nat
  deficit : Nat
  latencyBudget : Duration
  deriving DecidableEq, Repr

/-- What `recv_from` reports; an empty datagram counts as nothing. -/
inductive RecvOutcome where
  | datagram (payload : List UInt8)
  | wouldBlock
  | failed
  deriving DecidableEq, Repr

/-- The snapshot a round works on, and the number of flows it is done with. -/
structure Round where
  activeFlows : List Priority
  currentIndex : Nat
  snapshotMap : PriorityTable (Option (List Socket))
  done : Nat

/-- The flow being visited and its local copy of the deficit. -/
structure Visit where
  priority : Priority
  sockets : List Socket
  localDeficit : Nat
  deriving DecidableEq, Repr

/-- The top of the main loop, the loop over the flows, the inner loop of a visit and
the loop over the sockets, with the sockets to come; at `receive` the first of
them is read. -/
inductive Pc where
  | top
  | flow (round : Round)
  | visit (round : Round) (visit : Visit)
  | poll (round : Round) (visit : Visit) (rest : List Socket) (readAny : Bool)
  | receive (round : Round) (visit : Visit) (rest : List Socket) (readAny : Bool)
  | returned

/-- `carried` and `consumed` record history: for each class the number of visits
since the last one that used up its credit, and the datagrams read in the
current visit. -/
structure State where
  clock : Instant
  running : Bool
  nextPacketId : Nat
  socketConfigs : PriorityTable (List Socket)
  flowStates : PriorityTable (Option FlowState)
  activeFlows : List Priority
  currentFlowIndex : Nat
  queues : PriorityTable OutputQueue
  pc : Pc
  carried : PriorityTable Nat
  consumed : Nat

/-- `run` is the next step of `process_sockets`, `recv` a read with the answer of the
EDF queue to the packet it may give. -/
inductive Action where
  | addSocket (socket : Socket) (priority : Priority) (latencyBudget : Duration) (quantum : Nat)
  | tick (elapsed : Duration)
  | stop
  | run
  | recv (outcome : RecvOutcome) (room : Bool)

namespace State

def initial : State where
  clock := 0
  running := true
  nextPacketId := 0
  socketConfigs := fun _ => []
  flowStates := fun _ => none
  activeFlows := []
  currentFlowIndex := 0
  queues := fun _ => .initial
  pc := .top
  carried := fun _ => 0
  consumed := 0

/-- Budget and quantum of a class are those of its first socket. -/
def addSocket (state : State) (socket : Socket) (priority : Priority) (latencyBudget : Duration)
    (quantum : Nat) : State :=
  { state with
    flowStates := state.flowStates.set priority
      (some ((state.flowStates priority).getD { quantum, deficit := 0, latencyBudget }))
    socketConfigs := state.socketConfigs.set priority (state.socketConfigs priority ++ [socket])
    activeFlows :=
      if priority ∈ state.activeFlows then state.activeFlows else state.activeFlows ++ [priority] }

/-- STEP 1. -/
def snapshot (state : State) : Round where
  activeFlows := state.activeFlows
  currentIndex := state.currentFlowIndex
  snapshotMap := fun priority =>
    if priority ∈ state.activeFlows ∧ (state.flowStates priority).isSome then
      some (state.socketConfigs priority)
    else none
  done := 0

def setDeficit (state : State) (priority : Priority) (deficit : Nat) : State :=
  { state with
    flowStates := state.flowStates.set priority
      ((state.flowStates priority).map fun flow => { flow with deficit }) }

/-- STEP 6. -/
def finish (state : State) (round : Round) : State :=
  { state with
    currentFlowIndex := (round.currentIndex + 1) % round.activeFlows.length
    pc := .top }

def skip (state : State) (round : Round) : State :=
  { state with pc := .flow { round with done := round.done + 1 } }

/-- STEP 5. -/
def leave (state : State) (round : Round) (visit : Visit) : State :=
  ({ state.setDeficit visit.priority visit.localDeficit with
    carried := state.carried.set visit.priority
      (if visit.localDeficit = 0 then 0 else state.carried visit.priority + 1)
    consumed := 0 }).skip round

/-- Add the quantum to the deficit, in wrapping arithmetic, and start the visit. -/
def enter (state : State) (round : Round) (priority : Priority) (sockets : List Socket)
    (flow : FlowState) : State :=
  let localDeficit := (flow.deficit + flow.quantum) % wordBound
  let state := state.setDeficit priority localDeficit
  if localDeficit = 0 then state.skip round
  else { state with pc := .visit round { priority, sockets, localDeficit }, consumed := 0 }

def polled (state : State) (round : Round) (visit : Visit) (readAny : Bool) : State :=
  if readAny then { state with pc := .visit round visit } else state.leave round visit

/-- A datagram was read: the packet goes to the EDF queue of its class, or is
dropped, which leaves the loop over the sockets only. -/
def read (state : State) (round : Round) (visit : Visit) (rest : List Socket)
    (payload : List UInt8) (room : Bool) : State :=
  let latencyBudget := ((state.flowStates visit.priority).map FlowState.latencyBudget).getD 0
  let packet := Packet.fromBuffer state.nextPacketId state.clock visit.priority payload latencyBudget
  let visit := { visit with localDeficit := visit.localDeficit - 1 }
  { state with
    nextPacketId := state.nextPacketId + 1
    queues := state.queues.set visit.priority
      ((state.queues visit.priority).trySend (fun _ => room) packet)
    consumed := state.consumed + 1
    pc := if room then .poll round visit rest true else .visit round visit }

def runStep (state : State) : Option State :=
  match state.pc with
  | .top =>
      if state.running then
        if state.activeFlows = [] then some state
        else some { state with pc := .flow state.snapshot }
      else some { state with pc := .returned }
  | .flow round =>
      if round.done < round.activeFlows.length then
        if state.running then
          let flowIndex := (round.currentIndex + round.done) % round.activeFlows.length
          match round.activeFlows[flowIndex]? with
          | none => some (state.skip round)
          | some priority =>
              match round.snapshotMap priority, state.flowStates priority with
              | some sockets, some flow => some (state.enter round priority sockets flow)
              | _, _ => some (state.skip round)
        else some (state.finish round)
      else some (state.finish round)
  | .visit round visit =>
      if ¬ state.running ∨ visit.localDeficit = 0 then some (state.leave round visit)
      else some { state with pc := .poll round visit visit.sockets false }
  | .poll round visit rest readAny =>
      match rest with
      | [] => some (state.polled round visit readAny)
      | _ :: _ =>
          if visit.localDeficit = 0 ∨ ¬ state.running then
            some (state.polled round visit readAny)
          else some { state with pc := .receive round visit rest readAny }
  | .receive _ _ _ _ | .returned => none

def recvStep (state : State) (outcome : RecvOutcome) (room : Bool) : Option State :=
  match state.pc with
  | .receive round visit (_ :: rest) readAny =>
      match outcome with
      | .datagram (byte :: bytes) => some (state.read round visit rest (byte :: bytes) room)
      | .datagram [] | .wouldBlock | .failed =>
          some { state with pc := .poll round visit rest readAny }
  | _ => none

def step (state : State) : Action → Option State
  | .addSocket socket priority latencyBudget quantum =>
      some (state.addSocket socket priority latencyBudget quantum)
  | .tick elapsed => some { state with clock := state.clock + elapsed }
  | .stop => some { state with running := false }
  | .run => state.runStep
  | .recv outcome room => state.recvStep outcome room

end State

abbrev run : State → List Action → Option State := TransitionSystem.run State.step

end EdfPipeline.Ingress
