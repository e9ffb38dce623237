import EdfPipeline.Cedf.Stage
import EdfPipeline.Pipeline.Pace

/-!
# The pace of C-EDF

A displaced task goes back to the heap with the estimate of what is left of it, so
what its earlier slices have lasted is the rest of its cost.
-/

set_option autoImplicit false

namespace EdfPipeline.Cedf

variable {n : Nat}

/-- What the earlier slices of a task have done. -/
def QueuedTask.worked (task : QueuedTask) : Nat :=
  processingDuration task.packet - task.estimatedProcessing

@[simp] theorem QueuedTask.worked_of (priority : Priority) (packet : Packet) (now : Instant) :
    (QueuedTask.of priority packet now).worked = 0 := Nat.sub_self _

/-- The same of the task that is being processed, up to the slice that is on. -/
def Processing.worked (processing : Processing) (job : Job) : Nat :=
  processingDuration job.taskToProcess.packet - processing.processingTime

def DispatcherPc.worked : DispatcherPc → Nat
  | .completion _ task _ _ | .depth _ task _ _ _ => task.worked
  | .top | .high _ | .lower _ _ | .returned => 0

def WorkerQueue.worked (queue : WorkerQueue) : Nat := (queue.heap.map QueuedTask.worked).sum

theorem WorkerQueue.worked_push (queue : WorkerQueue) (task : QueuedTask) :
    (queue.push task).worked = task.worked + queue.worked := List.sum_cons

theorem WorkerQueue.worked_tryPop {queue left : WorkerQueue} {task : QueuedTask}
    (popped : queue.tryPop (some task) = some left) : queue.worked = task.worked + left.worked := by
  have removed := (State.tryPop_heap popped).map QueuedTask.worked
  exact removed.sum_eq.trans List.sum_cons

namespace Pc

/-- When the slice in progress began. -/
def begun : Pc → Option Instant
  | .busy _ processing | .check _ processing | .weigh _ processing _ | .poll _ processing _
  | .received _ processing _ _ | .displace _ processing _ => some processing.start
  | .top | .pop | .popped _ | .guard _ _ | .guardStart _ _ _ | .guardLoop _ _ | .guardSlice _ _ _
  | .guardSpin _ _ _ | .guardPoll _ _ _ _ | .guardReceived _ _ _ | .guardDisplace _ _
  | .guardRecheck _ _ | .process _ | .restart _ _ | .finish _ | .complete _ _ | .record _ _
  | .forward _ | .returned => none

/-- What the earlier slices of the tasks in the worker's hands have done. -/
def worked : Pc → Nat
  | .top | .pop | .returned => 0
  | .popped job | .guard job _ | .guardStart job _ _ | .guardLoop job _ | .guardSlice job _ _
  | .guardSpin job _ _ | .guardPoll job _ _ _ | .guardReceived job _ _ | .guardRecheck job _
  | .process job | .restart job _ => job.taskToProcess.worked
  | .guardDisplace job task => job.taskToProcess.worked + task.worked
  | .busy job processing | .check job processing | .weigh job processing _
  | .poll job processing _ | .received job processing _ _ => processing.worked job
  | .displace job processing task => processing.worked job + task.worked
  | .finish job | .complete job _ | .record job _ | .forward job =>
      processingDuration job.taskToProcess.packet

section Places

variable {job : Job} {processing : Processing} {pc : Pc}

theorem Guarding.worked_eq (guarding : pc.Guarding job) :
    pc.worked = job.taskToProcess.worked ∧ pc.begun = none := by
  cases guarding <;> exact ⟨rfl, rfl⟩

theorem Processes.worked_eq (processes : pc.Processes job processing) :
    pc.worked = processing.worked job ∧ pc.begun = some processing.start := by
  cases processes <;> exact ⟨rfl, rfl⟩

end Places

end Pc

/-- A slice adds what it lasts to what the earlier ones have done. -/
theorem slice_paid {cost estimate clock start : Nat} :
    cost - (estimate - (clock - start)) + Servers.spent clock (some start) ≤
      cost - estimate + clock := by
  simp only [Servers.spent]
  omega

theorem finished_paid {cost estimate clock start : Nat} (finished : ¬ clock - start < estimate) :
    cost + Servers.spent clock (some start) ≤ cost - estimate + clock := by
  simp only [Servers.spent]
  omega

namespace State

def done (state : State n) : Nat :=
  workload processingDuration (handedAll state.outputQueues) + state.dispatcher.worked +
    ∑ id, (state.queues id).worked + ∑ id, (state.workers id).worked

def spent (state : State n) : Nat := Servers.total Pc.begun state.clock state.workers

/-- What a step adds to the work done it adds to the time the workers had. -/
def Paid (state next : State n) : Prop := next.done + state.spent ≤ state.done + next.spent

variable {state next : State n} {id : Fin n}

/-- A step of one worker on its own queue. -/
theorem worker_paid {queue : WorkerQueue} {pc old : Pc} (place : state.workers id = old)
    (paid : queue.worked + pc.worked + Servers.spent state.clock old.begun ≤
      (state.queues id).worked + old.worked + Servers.spent state.clock pc.begun) :
    state.Paid ((state.setQueue id queue).goto id pc) := by
  subst place
  have queues := Ledger.sum_update WorkerQueue.worked state.queues id queue
  have hands := Ledger.sum_update Pc.worked state.workers id pc
  have time := Ledger.sum_update (fun pc : Pc => Servers.spent state.clock pc.begun) state.workers id pc
  simp only [Paid, done, spent, Servers.total, setQueue, goto]
  omega

/-- A step of one worker that leaves its queue alone. -/
theorem goto_paid {pc old : Pc} (place : state.workers id = old)
    (paid : pc.worked + Servers.spent state.clock old.begun ≤
      old.worked + Servers.spent state.clock pc.begun) : state.Paid (state.goto id pc) := by
  have same : (state.setQueue id (state.queues id)).goto id pc = state.goto id pc := by
    simp only [setQueue, goto, Function.update_eq_self]
  rw [← same]
  apply worker_paid place
  rw [Nat.add_assoc, Nat.add_assoc]
  exact Nat.add_le_add_left paid _

theorem requeue_paid {task : QueuedTask} {pc old : Pc} (place : state.workers id = old)
    (paid : task.worked + pc.worked + Servers.spent state.clock old.begun ≤
      old.worked + Servers.spent state.clock pc.begun) : state.Paid (state.requeue id task pc) := by
  apply worker_paid place
  rw [WorkerQueue.worked_push]
  omega

theorem forward_paid {job : Job} {room : Bool} (place : state.workers id = .forward job) :
    state.Paid ({ state with
      outputQueues := state.outputQueues.set job.finalPriority
        ((state.outputQueues job.finalPriority).trySend (fun _ => room)
          job.taskToProcess.packet) }.goto id .top) := by
  have update := @Servers.update_paid _ _ _ Pc.begun _ Pc.worked state.clock state.workers id .top
    (processingDuration job.taskToProcess.packet) (by
      rw [place]
      simp only [Pc.worked, Pc.begun, Nat.zero_add, Nat.le_refl])
  simp only [Paid, done, spent, goto, workload_trySend]
  omega

/-- The dispatcher moves on, with the task it has in hand. -/
theorem dispatcher_paid {inputQueues : PriorityTable (Channel Packet)} {dispatcher old : DispatcherPc}
    (place : state.dispatcher = old) (same : dispatcher.worked = old.worked) :
    state.Paid { state with inputQueues, dispatcher } := by
  unfold Paid done
  rw [same, place]
  exact Nat.le_refl _

theorem DispatchMove.paid (move : DispatchMove state next) : state.Paid next := by
  cases move with
  | @assign now task scan index place scanned chosen =>
      have pushed := @Ledger.sum_update_add _ _ _ _ _ _ WorkerQueue.worked state.queues
        ⟨scan.bestWorker, chosen⟩ _ _ (WorkerQueue.worked_push _ task)
      have left : (DispatcherPc.after now task.priority).worked = 0 := by
        cases task.priority <;> rfl
      unfold Paid done
      rw [place, left]
      simp only [setQueue, pushed, spent]
      change _ ≤ _ + task.worked + _ + _ + _
      omega
  | top place =>
      apply dispatcher_paid place
      split <;> rfl
  | takeHigh place | takeLower place =>
      exact dispatcher_paid place (QueuedTask.worked_of _ _ _)
  | noHigh place | skip place | lowerDone place | scan place | keep place =>
      exact dispatcher_paid place rfl

theorem WorkerMove.paid (move : WorkerMove state id next) : state.Paid next := by
  cases move with
  | top place =>
      apply goto_paid place
      split <;> exact Nat.le_refl _
  | guard place guarding guarding' =>
      apply goto_paid place
      rw [guarding.worked_eq.1, guarding.worked_eq.2, guarding'.worked_eq.1, guarding'.worked_eq.2]
  | slice place processes processes' =>
      apply goto_paid place
      rw [processes.worked_eq.1, processes.worked_eq.2, processes'.worked_eq.1, processes'.worked_eq.2]
      exact Nat.le_refl _
  | @guardReceive job window deadline priority packet remaining place =>
      have moved := @goto_paid _ (state.setInput priority remaining) id
        (.guardReceived job priority packet) _ place (Nat.le_refl _)
      exact moved
  | @receive job processing priority packet remaining place =>
      have moved := @goto_paid _ (state.setInput priority remaining) id
        (.received job processing priority packet) _ place (Nat.le_refl _)
      exact moved
  | guardReceived place | received place =>
      apply goto_paid place
      simp only [Pc.worked, Pc.begun, QueuedTask.worked_of, Nat.add_zero, Nat.le_refl]
  | guardDisplace place => exact requeue_paid place (Nat.le_refl _)
  | @displace job processing task place =>
      apply requeue_paid place
      have paid := @slice_paid (processingDuration job.taskToProcess.packet) processing.processingTime
        state.clock processing.start
      simp only [Pc.worked, Pc.begun, Processing.worked, Job.of, QueuedTask.worked,
        Processing.estimatedRemaining]
      simp only [Servers.spent] at paid ⊢
      omega
  | process place | restart place =>
      apply goto_paid place
      simp only [Pc.begun, Processing.begin, Servers.spent_begin]
      exact Nat.le_refl _
  | done place finished =>
      apply goto_paid place
      exact finished_paid finished
  | complete place =>
      apply worker_paid place
      exact Nat.le_refl _
  | @record job observedLatency mediumLatencyTracker lowLatencyTracker place =>
      have moved := @goto_paid _ { state with mediumLatencyTracker, lowLatencyTracker } id
        (.forward job) _ place (Nat.le_refl _)
      exact moved
  | idle place | finish place => exact goto_paid place (Nat.le_refl _)

theorem step_paid {action : Action n} (stepped : state.step action = some next) :
    state.Paid next := by
  cases step_moves stepped with
  | arrive | disconnect | stop => exact Nat.le_refl _
  | tick elapsed => exact Nat.add_le_add_left (Servers.total_tick _ _ _) _
  | dispatch move => exact move.paid
  | run move => exact move.paid
  | pop place popped =>
      apply worker_paid place
      rw [WorkerQueue.worked_tryPop popped]
      simp only [Pc.worked, Pc.begun, Job.of]
      omega
  | forward place => exact forward_paid place

end State

/-- The stage with its workers. -/
def pacedStage (n : Nat) : PacedStage where
  toStage := (fed n).toStage
  threads := n
  cost := processingDuration
  least := 50000
  done := State.done
  spent := State.spent
  least_le := le_processingDuration
  initial_clock := rfl
  initial_done := by
    change workload processingDuration (handedAll fun _ => .initial) + 0 + ∑ _ : Fin n, 0 +
      ∑ _ : Fin n, 0 = 0
    simp only [handedAll_initial, workload_zero, Finset.sum_const_zero, Nat.add_zero]
  paid _ moved := by
    obtain ⟨_, stepped⟩ := Wiring.moves_step moved
    exact State.step_paid stepped
  handed state := by
    unfold State.done
    rw [Nat.add_assoc, Nat.add_assoc]
    exact Nat.le_add_right _ _
  spent_le state := by
    have bound := @Servers.total_le _ _ _ Pc.begun state.clock state.workers
    rw [Fintype.card_fin] at bound
    exact bound

end EdfPipeline.Cedf
