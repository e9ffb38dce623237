import EdfPipeline.Gedf.Scheduler

/-!
# Steps of the shared run queue

What the dispatcher and a worker can do in one step, and whom a notification
reaches. The heap changes only while nobody else holds the mutex.
-/

set_option autoImplicit false

namespace EdfPipeline.Gedf

open EarliestFirst

variable {κ : Type} {n : Nat}

namespace State

inductive WorkerMove (state : State κ n) (id : Fin n) : State κ n → Prop where
  | lock (place : state.workers id = .lock) (free : state.Free) :
      WorkerMove state id (state.goto id .check)
  | check (place : state.workers id = .check) (empty : state.heap = []) :
      WorkerMove state id (state.goto id .load)
  | load (place : state.workers id = .load) :
      WorkerMove state id (state.goto id (if state.running then .wait else .returned))
  | wait (place : state.workers id = .wait) : WorkerMove state id (state.goto id .waiting)
  | process {task : QueuedTask κ} (place : state.workers id = .process task) :
      WorkerMove state id (state.goto id (.busy task state.clock))
  | spin {task : QueuedTask κ} {start : Instant} (place : state.workers id = .busy task start)
      (unfinished : state.clock - start < processingDuration task.packet) :
      WorkerMove state id state
  | done {task : QueuedTask κ} {start : Instant} (place : state.workers id = .busy task start)
      (finished : ¬ state.clock - start < processingDuration task.packet) :
      WorkerMove state id (state.goto id (.forward task))

theorem runWorker_moves {state next : State κ n} {id : Fin n}
    (stepped : state.runWorker id = some next) : WorkerMove state id next := by
  cases place : state.workers id with
  | lock =>
      simp only [runWorker, place] at stepped
      split at stepped
      · rename_i free
        cases stepped
        exact .lock place free
      · cases stepped
  | check =>
      simp only [runWorker, place] at stepped
      split at stepped
      · rename_i empty
        cases stepped
        exact .check place empty
      · cases stepped
  | load =>
      simp only [runWorker, place, Option.some.injEq] at stepped
      cases stepped
      exact .load place
  | wait =>
      simp only [runWorker, place, Option.some.injEq] at stepped
      cases stepped
      exact .wait place
  | process task =>
      simp only [runWorker, place, Option.some.injEq] at stepped
      cases stepped
      exact .process place
  | busy task start =>
      simp only [runWorker, place] at stepped
      split at stepped
      · rename_i unfinished
        cases stepped
        exact .spin place unfinished
      · rename_i finished
        cases stepped
        exact .done place finished
  | waiting | forward task | returned => simp [runWorker, place] at stepped

variable [LinearOrder κ] {key : Priority → Packet → κ}

inductive DispatchMove (key : Priority → Packet → κ) (state : State κ n) : State κ n → Prop where
  | top (place : state.dispatcher = .top) :
      DispatchMove key state
        { state with dispatcher := if state.running then .poll Priority.all else .wakeAll }
  | pass (place : state.dispatcher = .poll []) :
      DispatchMove key state { state with dispatcher := .top }
  | take {priority : Priority} {rest : List Priority} {packet : Packet} {remaining : Channel Packet}
      (place : state.dispatcher = .poll (priority :: rest))
      (taken : (state.inputQueues priority).tryRecv = .ok (packet, remaining)) :
      DispatchMove key state { state.setInput priority remaining with
        dispatcher := .push (.of key priority packet) rest }
  | skip {priority : Priority} {rest : List Priority} {error : TryRecvError}
      (place : state.dispatcher = .poll (priority :: rest))
      (failed : (state.inputQueues priority).tryRecv = .error error) :
      DispatchMove key state { state with dispatcher := .poll rest }
  | push {task : QueuedTask κ} {rest : List Priority} (place : state.dispatcher = .push task rest)
      (free : state.Free) :
      DispatchMove key state { state with heap := task :: state.heap, dispatcher := .notify rest }
  | wakeAll (place : state.dispatcher = .wakeAll) :
      DispatchMove key state { state with
        workers := fun id => if state.workers id = .waiting then .lock else state.workers id
        dispatcher := .returned }

theorem dispatch_moves {state next : State κ n}
    (stepped : state.dispatch key = some next) : DispatchMove key state next := by
  cases place : state.dispatcher with
  | top =>
      simp only [dispatch, place, Option.some.injEq] at stepped
      cases stepped
      exact .top place
  | poll classes =>
      cases classes with
      | nil =>
          simp only [dispatch, place, Option.some.injEq] at stepped
          cases stepped
          exact .pass place
      | cons priority rest =>
          simp only [dispatch, place] at stepped
          split at stepped
          · rename_i taken
            cases stepped
            exact .take place taken
          · rename_i failed
            cases stepped
            exact .skip place failed
  | push task rest =>
      simp only [dispatch, place] at stepped
      split at stepped
      · rename_i free
        cases stepped
        exact .push place free
      · cases stepped
  | wakeAll =>
      simp only [dispatch, place, Option.some.injEq] at stepped
      cases stepped
      exact .wakeAll place
  | notify rest | returned => simp [dispatch, place] at stepped

inductive Moves (key : Priority → Packet → κ) (state : State κ n) :
    Action κ n → State κ n → Prop where
  | arrive (packet : Packet) (connected : (state.inputQueues packet.priority).disconnected = false) :
      Moves key state (.arrive packet)
        (state.setInput packet.priority ((state.inputQueues packet.priority).send packet))
  | disconnect (priority : Priority) :
      Moves key state (.disconnect priority)
        (state.setInput priority { state.inputQueues priority with disconnected := true })
  | tick (elapsed : Duration) :
      Moves key state (.tick elapsed) { state with clock := state.clock + elapsed }
  | stop : Moves key state .stop { state with running := false }
  | dispatch {next : State κ n} (move : DispatchMove key state next) : Moves key state .dispatch next
  | notifyOne {id : Fin n} {rest : List Priority} (place : state.dispatcher = .notify rest)
      (asleep : state.workers id = .waiting) :
      Moves key state (.notify (some id)) { state.goto id .lock with dispatcher := .poll rest }
  | notifyNobody {rest : List Priority} (place : state.dispatcher = .notify rest)
      (awake : ∀ id, state.workers id ≠ .waiting) :
      Moves key state (.notify none) { state with dispatcher := .poll rest }
  | run {id : Fin n} {next : State κ n} (move : WorkerMove state id next) :
      Moves key state (.run id) next
  | pop {id : Fin n} {task : QueuedTask κ} (place : state.workers id = .check)
      (greatest : Greatest QueuedTask.cmp task state.heap) :
      Moves key state (.pop id task)
        ({ state with heap := state.heap.erase task }.goto id (.process task))
  | wake {id : Fin n} (asleep : state.workers id = .waiting) :
      Moves key state (.wake id) (state.goto id .lock)
  | forward {id : Fin n} {task : QueuedTask κ} {room : Bool}
      (place : state.workers id = .forward task) :
      Moves key state (.forward id room) ({ state with
        outputQueues := state.outputQueues.set task.priority
          ((state.outputQueues task.priority).trySend (fun _ => room) task.packet) }.goto id .lock)

theorem step_moves {state next : State κ n} {action : Action κ n}
    (stepped : state.step key action = some next) : Moves key state action next := by
  cases action with
  | arrive packet =>
      simp only [step] at stepped
      split at stepped
      · cases stepped
      · rename_i connected
        cases stepped
        exact .arrive packet (Bool.eq_false_of_not_eq_true connected)
  | disconnect priority =>
      cases stepped
      exact .disconnect priority
  | tick elapsed =>
      cases stepped
      exact .tick elapsed
  | stop =>
      cases stepped
      exact .stop
  | dispatch => exact .dispatch (dispatch_moves stepped)
  | notify woken =>
      simp only [step, notify] at stepped
      split at stepped
      · rename_i place
        split at stepped
        · split at stepped
          · rename_i asleep
            cases stepped
            exact .notifyOne place asleep
          · cases stepped
        · split at stepped
          · rename_i awake
            cases stepped
            exact .notifyNobody place awake
          · cases stepped
      · cases stepped
  | run id => exact .run (runWorker_moves stepped)
  | pop id task =>
      simp only [step, popWorker] at stepped
      split at stepped
      · rename_i enabled
        cases stepped
        exact .pop enabled.1 enabled.2
      · cases stepped
  | wake id =>
      simp only [step, wake] at stepped
      split at stepped
      · rename_i asleep
        cases stepped
        exact .wake asleep
      · cases stepped
  | forward id room =>
      simp only [step, forwardWorker] at stepped
      split at stepped
      · rename_i place
        cases stepped
        exact .forward place
      · cases stepped

end State

end EdfPipeline.Gedf
