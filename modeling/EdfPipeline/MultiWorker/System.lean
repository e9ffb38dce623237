import EdfPipeline.MultiWorker.Worker
import EdfPipeline.Library.TransitionSystem

/-!
# The multi-worker scheduler

Three `run_worker` loops over the shared input channels, the completion router
and the adaptive controller, while `running` is true. The environment offers
packets, lets time pass and stores any value into the controller at any moment;
`autobalance_loop` is one such writer.
-/

set_option autoImplicit false

namespace EdfPipeline.MultiWorker

open EarliestFirst

/-- The last three fields record history. `taken` and `numbered` list each
class's packets in the order they were received and numbered; `lost` lists the
items a refused push consumed, which nothing refers to any more. -/
structure State where
  clock : Instant
  inputQueues : PriorityTable (Channel Packet)
  completion : CompletionRouter
  controller : AdaptiveController
  workers : WorkerId → Worker
  taken : PriorityTable (List Packet)
  numbered : PriorityTable (List Packet)
  lost : List ScheduledItem

/-- `run` is the next step of a worker, `pop` its STEP 2 on a non-empty heap and
`complete` its STEP 6, with the output channel's answer to each send. -/
inductive Action where
  | arrive (priority : Priority) (packet : Packet)
  | disconnect (priority : Priority)
  | tick (elapsed : Duration)
  | store (store : Store)
  | run (worker : WorkerId)
  | pop (worker : WorkerId) (item : ScheduledItem)
  | complete (worker : WorkerId) (room : Nat → Bool)

namespace State

def initial : State where
  clock := 0
  inputQueues := fun _ => .empty
  completion := .new
  controller := .new
  workers := fun _ => .initial
  taken := fun _ => []
  numbered := fun _ => []
  lost := []

def setWorker (state : State) (id : WorkerId) (worker : Worker) : State :=
  { state with workers := Function.update state.workers id worker }

def goto (state : State) (id : WorkerId) (pc : Pc) : State :=
  state.setWorker id ((state.workers id).goto pc)

def receive (state : State) (id : WorkerId) (site : Site) (packet : Packet)
    (remaining : Channel Packet) : State :=
  { state with
    inputQueues := state.inputQueues.set site.priority remaining
    taken := state.taken.set site.priority (state.taken site.priority ++ [packet]) }.goto id
      (.received site packet (state.taken site.priority).length)

/-- `prepare`: the packet draws the next number of its class. -/
def prepare (state : State) (id : WorkerId) (site : Site) (packet : Packet) : State :=
  let (workItem, completion) := state.completion.prepare site.priority packet
  { state with
    completion
    numbered := state.numbered.set site.priority (state.numbered site.priority ++ [packet]) }.goto
      id (.prepared site { deadline := packet.deadline, workItem })

/-- Push the prepared item. A refused item is lost. -/
def push (state : State) (id : WorkerId) (item : ScheduledItem) (accepted refused : Pc) : State :=
  match (state.workers id).pushWithCapacity item with
  | (true, worker) => state.setWorker id ((worker.fetchAdd item.priority).goto accepted)
  | (false, worker) =>
      { state with lost := item :: state.lost }.setWorker id (worker.goto refused)

/-- Requeue the displaced item and go on with the new one. -/
def displace (state : State) (id : WorkerId) (scheduled : ScheduledItem) (initial : Priority)
    (next : Pc) : State :=
  match (state.workers id).requeue scheduled initial with
  | (true, worker) => state.setWorker id (worker.goto next)
  | (false, worker) =>
      { state with lost := scheduled :: state.lost }.setWorker id (worker.goto next)

def runWorker (state : State) (id : WorkerId) : Option State :=
  let worker := state.workers id
  match worker.pc with
  | .top =>
      some (state.setWorker id
        { worker with
          totalLimit := state.controller.totalLimit id
          pc := .readPriorityLimits Priority.all })
  | .readPriorityLimits [] => some (state.goto id (.drain (workerAssignments id)))
  | .readPriorityLimits (priority :: rest) =>
      some (state.setWorker id
        { worker with
          perPriorityLimit := worker.perPriorityLimit.set priority
            (state.controller.workerPriorityLimits id priority)
          pc := .readPriorityLimits rest })
  | .drain [] => some (state.setWorker id { worker with backlog := worker.totalCount, pc := .select })
  | .drain (priority :: rest) =>
      if worker.QuotaReached priority then some (state.goto id (.drain rest))
      else
        match (state.inputQueues priority).tryRecv with
        | .ok (packet, remaining) =>
            some (state.receive id (.drain priority rest) packet remaining)
        | .error _ => some (state.goto id (.drain rest))
  | .received site packet _ => some (state.prepare id site packet)
  | .prepared (.drain priority rest) item =>
      some (state.push id item (.drain (priority :: rest)) (.drain rest))
  | .select => if worker.heap = [] then some (state.goto id .top) else none
  | .immediate scheduled initial =>
      if .high ∈ workerAssignments id ∧
          ¬ (scheduled.priority = .medium ∧ worker.counts .high > 0) then
        some (state.goto id (.poll scheduled initial))
      else
        some (state.goto id (.guard scheduled initial))
  | .poll scheduled initial =>
      if worker.QuotaReached .high then some (state.goto id (.guard scheduled initial))
      else
        match (state.inputQueues .high).tryRecv with
        | .ok (packet, remaining) =>
            some (state.receive id (.poll scheduled initial) packet remaining)
        | .error _ => some (state.goto id (.guard scheduled initial))
  | .prepared (.poll scheduled initial) item =>
      if item.deadline < scheduled.deadline then
        some (state.displace id scheduled initial (.poll item initial))
      else
        some (state.push id item (.poll scheduled initial) (.guard scheduled initial))
  | .guard scheduled initial =>
      if .high ∈ workerAssignments id then
        let packet := scheduled.workItem.packet
        let elapsed := state.clock - packet.timestamp
        match state.controller.guardThreshold scheduled.priority packet.latencyBudget with
        | some threshold =>
            if elapsed < threshold then
              some (state.goto id (.guardLoop scheduled initial threshold elapsed))
            else some (state.goto id (.process scheduled))
        | none => some (state.goto id (.process scheduled))
      else some (state.goto id (.process scheduled))
  | .guardLoop scheduled initial threshold elapsed =>
      if elapsed < threshold then
        let window := min (threshold - elapsed) state.controller.guardSlice
        some (state.goto id (.guardSpin scheduled initial threshold (state.clock + window)))
      else some (state.goto id (.process scheduled))
  | .guardSpin scheduled initial threshold deadline =>
      if state.clock < deadline then
        if worker.QuotaReached .high then
          some (state.goto id (.guardRecheck scheduled initial threshold))
        else
          match (state.inputQueues .high).tryRecv with
          | .ok (packet, remaining) =>
              some (state.receive id (.guard scheduled initial) packet remaining)
          | .error .empty => some state
          | .error .disconnected => some (state.goto id (.process scheduled))
      else some (state.goto id (.guardRecheck scheduled initial threshold))
  | .guardRecheck scheduled initial threshold =>
      let elapsed := state.clock - scheduled.workItem.packet.timestamp
      if elapsed ≥ threshold then some (state.goto id (.process scheduled))
      else some (state.goto id (.guardLoop scheduled initial threshold elapsed))
  | .prepared (.guard scheduled initial) item =>
      some (state.displace id scheduled initial (.process item))
  | .process scheduled => some (state.goto id (.busy scheduled state.clock))
  | .busy scheduled start =>
      let processingTime := processingDuration scheduled.workItem.packet
      if state.clock - start < processingTime then some state
      else
        some ({ state with
          controller := state.controller.observeProcessingTime scheduled.priority
            processingTime }.goto id (.complete scheduled))
  | .complete _ => none

def popWorker (state : State) (id : WorkerId) (item : ScheduledItem) : Option State :=
  let worker := state.workers id
  if worker.pc = .select ∧ Earliest ScheduledItem.deadline item worker.heap then
    some (state.setWorker id ((worker.popped item).goto (.immediate item item.priority)))
  else none

def completeWorker (state : State) (id : WorkerId) (room : Nat → Bool) : Option State :=
  match (state.workers id).pc with
  | .complete scheduled =>
      some ({ state with
        completion := state.completion.complete scheduled.workItem room }.goto id .top)
  | _ => none

def step (state : State) : Action → Option State
  | .arrive priority packet =>
      some { state with
        inputQueues := state.inputQueues.set priority ((state.inputQueues priority).send packet) }
  | .disconnect priority =>
      some { state with
        inputQueues := state.inputQueues.set priority
          { state.inputQueues priority with disconnected := true } }
  | .tick elapsed => some { state with clock := state.clock + elapsed }
  | .store store =>
      if store.Fits then some { state with controller := state.controller.apply store } else none
  | .run id => state.runWorker id
  | .pop id item => state.popWorker id item
  | .complete id room => state.completeWorker id room

end State

abbrev run : State → List Action → Option State := TransitionSystem.run State.step

end EdfPipeline.MultiWorker
