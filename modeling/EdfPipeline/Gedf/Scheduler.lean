import EdfPipeline.Channel
import EdfPipeline.Duration
import EdfPipeline.GedfVd.VirtualDeadline
import EdfPipeline.Library.TransitionSystem

/-!
# Schedulers with a shared run queue

The G-EDF and the G-EDF-VD scheduler: one dispatcher and a worker on each core,
over a heap behind a mutex and a condition variable. The two differ in the key
their tasks are ordered by and in nothing else.
-/

set_option autoImplicit false

namespace EdfPipeline.Gedf

open EarliestFirst

variable {κ : Type} [LinearOrder κ]

structure QueuedTask (κ : Type) where
  key : κ
  priority : Priority
  packet : Packet
  deriving DecidableEq

namespace QueuedTask

/-- `Ord::cmp`, reversed so that a max-heap pops the earliest key. -/
def cmp (self other : QueuedTask κ) : Ordering := compare other.key self.key

/-- The task the dispatcher makes of a packet of input channel `priority`. -/
def of (key : Priority → Packet → κ) (priority : Priority) (packet : Packet) : QueuedTask κ where
  key := key priority packet
  priority
  packet

end QueuedTask

/-- The key of the G-EDF scheduler. -/
def deadline (_ : Priority) (packet : Packet) : Instant := packet.deadline

/-- The key of the G-EDF-VD scheduler. The factor is a double, and the scaled budget
is a whole number of nanoseconds again. -/
def virtualDeadline (priority : Priority) (packet : Packet) : Instant :=
  packet.timestamp + packet.latencyBudget.mulF64 (Binary64.nearest (GedfVd.factor priority))

/-- `worker_core_list`: without cores of their own the workers share the dispatcher's. -/
def workerCoreList (dispatcherCore : Nat) (workerCores : List Nat) : List Nat :=
  if workerCores = [] then [dispatcherCore] else workerCores

/-- A place in `worker_loop`. `lock` to `waiting` are in `SharedQueue::pop`: the
mutex is to be acquired, the heap is looked at, `running` is read, the wait
begins, the worker sleeps. -/
inductive WorkerPc (κ : Type) where
  | lock
  | check
  | load
  | wait
  | waiting
  | process (task : QueuedTask κ)
  | busy (task : QueuedTask κ) (start : Instant)
  | forward (task : QueuedTask κ)
  | returned
  deriving DecidableEq

namespace WorkerPc

def holdsMutex : WorkerPc κ → Bool
  | .check | .load | .wait => true
  | _ => false

def tasks : WorkerPc κ → List (QueuedTask κ)
  | .process task | .busy task _ | .forward task => [task]
  | _ => []

end WorkerPc

/-- A place in `dispatcher_loop`; `rest` are the classes the pass has still to
poll. `push` and `notify` are the two halves of `SharedQueue::push`. -/
inductive DispatcherPc (κ : Type) where
  | top
  | poll (rest : List Priority)
  | push (task : QueuedTask κ) (rest : List Priority)
  | notify (rest : List Priority)
  | wakeAll
  | returned
  deriving DecidableEq

def DispatcherPc.tasks : DispatcherPc κ → List (QueuedTask κ)
  | .push task _ => [task]
  | _ => []

structure State (κ : Type) (n : Nat) where
  clock : Instant
  running : Bool
  inputQueues : PriorityTable (Channel Packet)
  outputQueues : PriorityTable OutputQueue
  heap : List (QueuedTask κ)
  workers : Fin n → WorkerPc κ
  dispatcher : DispatcherPc κ

/-- `dispatch` and `run` are the next steps of the dispatcher and of a worker,
`notify` is `notify_one` with the worker it wakes, if one waits, and `wake` a
spurious wakeup. `pop` pops a non-empty heap and `forward` comes with the answer
of the output channel. A packet arrives on the input channel of its class. -/
inductive Action (κ : Type) (n : Nat) where
  | arrive (packet : Packet)
  | disconnect (priority : Priority)
  | tick (elapsed : Duration)
  | stop
  | dispatch
  | notify (woken : Option (Fin n))
  | run (worker : Fin n)
  | pop (worker : Fin n) (task : QueuedTask κ)
  | wake (worker : Fin n)
  | forward (worker : Fin n) (room : Bool)

namespace State

variable {n : Nat}

def initial (κ : Type) (n : Nat) : State κ n where
  clock := 0
  running := true
  inputQueues := fun _ => .empty
  outputQueues := fun _ => .initial
  heap := []
  workers := fun _ => .lock
  dispatcher := .top

/-- No worker holds the mutex. The dispatcher only ever holds it within one step. -/
def Free (state : State κ n) : Prop := ∀ id, (state.workers id).holdsMutex = false

instance (state : State κ n) : Decidable state.Free :=
  inferInstanceAs (Decidable (∀ id, (state.workers id).holdsMutex = false))

def goto (state : State κ n) (id : Fin n) (pc : WorkerPc κ) : State κ n :=
  { state with workers := Function.update state.workers id pc }

def setInput (state : State κ n) (priority : Priority) (channel : Channel Packet) : State κ n :=
  { state with inputQueues := state.inputQueues.set priority channel }

def dispatch (key : Priority → Packet → κ) (state : State κ n) : Option (State κ n) :=
  match state.dispatcher with
  | .top => some { state with dispatcher := if state.running then .poll Priority.all else .wakeAll }
  | .poll [] => some { state with dispatcher := .top }
  | .poll (priority :: rest) =>
      match (state.inputQueues priority).tryRecv with
      | .ok (packet, remaining) =>
          some { state.setInput priority remaining with
            dispatcher := .push (.of key priority packet) rest }
      | .error _ => some { state with dispatcher := .poll rest }
  | .push task rest =>
      if state.Free then some { state with heap := task :: state.heap, dispatcher := .notify rest }
      else none
  | .wakeAll =>
      some { state with
        workers := fun id => if state.workers id = .waiting then .lock else state.workers id
        dispatcher := .returned }
  | .notify _ | .returned => none

/-- A notification reaches a worker that waits, or nobody if none does. -/
def notify (state : State κ n) (woken : Option (Fin n)) : Option (State κ n) :=
  match state.dispatcher with
  | .notify rest =>
      match woken with
      | some id =>
          if state.workers id = .waiting then
            some { state.goto id .lock with dispatcher := .poll rest }
          else none
      | none =>
          if ∀ id, state.workers id ≠ .waiting then some { state with dispatcher := .poll rest }
          else none
  | _ => none

def runWorker (state : State κ n) (id : Fin n) : Option (State κ n) :=
  match state.workers id with
  | .lock => if state.Free then some (state.goto id .check) else none
  | .check => if state.heap = [] then some (state.goto id .load) else none
  | .load => some (state.goto id (if state.running then .wait else .returned))
  | .wait => some (state.goto id .waiting)
  | .process task => some (state.goto id (.busy task state.clock))
  | .busy task start =>
      if state.clock - start < processingDuration task.packet then some state
      else some (state.goto id (.forward task))
  | .waiting | .forward _ | .returned => none

def popWorker (state : State κ n) (id : Fin n) (task : QueuedTask κ) : Option (State κ n) :=
  if state.workers id = .check ∧ Greatest QueuedTask.cmp task state.heap then
    some ({ state with heap := state.heap.erase task }.goto id (.process task))
  else none

def wake (state : State κ n) (id : Fin n) : Option (State κ n) :=
  if state.workers id = .waiting then some (state.goto id .lock) else none

def forwardWorker (state : State κ n) (id : Fin n) (room : Bool) : Option (State κ n) :=
  match state.workers id with
  | .forward task =>
      some ({ state with
        outputQueues := state.outputQueues.set task.priority
          ((state.outputQueues task.priority).trySend (fun _ => room) task.packet) }.goto id .lock)
  | _ => none

def step (key : Priority → Packet → κ) (state : State κ n) : Action κ n → Option (State κ n)
  | .arrive packet =>
      let channel := state.inputQueues packet.priority
      if channel.disconnected then none
      else some (state.setInput packet.priority (channel.send packet))
  | .disconnect priority =>
      some (state.setInput priority { state.inputQueues priority with disconnected := true })
  | .tick elapsed => some { state with clock := state.clock + elapsed }
  | .stop => some { state with running := false }
  | .dispatch => state.dispatch key
  | .notify woken => state.notify woken
  | .run id => state.runWorker id
  | .pop id task => state.popWorker id task
  | .wake id => state.wake id
  | .forward id room => state.forwardWorker id room

end State

abbrev run {n : Nat} (key : Priority → Packet → κ) :
    State κ n → List (Action κ n) → Option (State κ n) :=
  TransitionSystem.run (State.step key)

end EdfPipeline.Gedf
