import EdfPipeline.Cedf.System

/-!
# Steps of C-EDF

What the dispatcher and a worker can do in one step, with what they saw. A worker
that guards its task or processes it goes from place to place without touching
anything shared, unless a check finds a packet.
-/

set_option autoImplicit false

namespace EdfPipeline.Cedf

variable {n : Nat}

namespace Pc

/-- The places from the pop of a task up to the beginning of its processing. -/
inductive Guarding (job : Job) : Pc → Prop where
  | popped : Guarding job (.popped job)
  | guard (now : Instant) : Guarding job (.guard job now)
  | guardStart (safetyMargin guardThreshold : Duration) :
      Guarding job (.guardStart job safetyMargin guardThreshold)
  | guardLoop (window : Window) : Guarding job (.guardLoop job window)
  | guardSlice (window : Window) (remaining : Duration) :
      Guarding job (.guardSlice job window remaining)
  | guardSpin (window : Window) (deadline : Instant) : Guarding job (.guardSpin job window deadline)
  | guardPoll (window : Window) (deadline : Instant) (priority : Priority) :
      Guarding job (.guardPoll job window deadline priority)
  | guardRecheck (window : Window) : Guarding job (.guardRecheck job window)
  | process : Guarding job (.process job)

/-- The places of the busy-wait and of the checks it is interrupted for. -/
inductive Processes (job : Job) (processing : Processing) : Pc → Prop where
  | busy : Processes job processing (.busy job processing)
  | check : Processes job processing (.check job processing)
  | weigh (now : Instant) : Processes job processing (.weigh job processing now)
  | poll (priority : Priority) : Processes job processing (.poll job processing priority)

def polled : Pc → Option Priority
  | .guardPoll _ _ _ priority | .poll _ _ priority => some priority
  | _ => none

end Pc

theorem afterGuardPoll_guarding (job : Job) (window : Window) (deadline : Instant)
    (priority : Priority) (error : TryRecvError) :
    (afterGuardPoll job window deadline priority error).Guarding job := by
  unfold afterGuardPoll
  split
  · split
    · exact .guardPoll window deadline .medium
    · exact .guardSpin window deadline
  · cases error with
    | empty => exact .guardSpin window deadline
    | disconnected => exact .process

theorem afterPoll_processes (job : Job) (processing : Processing) (priority : Priority) :
    (afterPoll job processing priority).Processes job processing := by
  unfold afterPoll
  split
  · exact .poll .medium
  · exact .busy

namespace State

/-! ## The dispatcher -/

inductive DispatchMove (state : State n) : State n → Prop where
  | top (place : state.dispatcher = .top) :
      DispatchMove state
        { state with dispatcher := if state.running then .high state.clock else .returned }
  | takeHigh {now : Instant} {packet : Packet} {remaining : Channel Packet}
      (place : state.dispatcher = .high now)
      (taken : (state.inputQueues .high).tryRecv = .ok (packet, remaining)) :
      DispatchMove state { state.setInput .high remaining with
        dispatcher := .completion now (.of .high packet now) .initial 0 }
  | noHigh {now : Instant} {error : TryRecvError} (place : state.dispatcher = .high now)
      (failed : (state.inputQueues .high).tryRecv = .error error) :
      DispatchMove state { state with dispatcher := .lower now [.medium, .low, .bestEffort] }
  | takeLower {now : Instant} {priority : Priority} {rest : List Priority} {packet : Packet}
      {remaining : Channel Packet} (place : state.dispatcher = .lower now (priority :: rest))
      (taken : (state.inputQueues priority).tryRecv = .ok (packet, remaining)) :
      DispatchMove state { state.setInput priority remaining with
        dispatcher := .completion now (.of priority packet now) .initial 0 }
  | skip {now : Instant} {priority : Priority} {rest : List Priority} {error : TryRecvError}
      (place : state.dispatcher = .lower now (priority :: rest))
      (failed : (state.inputQueues priority).tryRecv = .error error) :
      DispatchMove state { state with dispatcher := .lower now rest }
  | lowerDone {now : Instant} (place : state.dispatcher = .lower now []) :
      DispatchMove state { state with dispatcher := .top }
  | scan {now : Instant} {task : QueuedTask} {scan : Scan} {index : Nat}
      (place : state.dispatcher = .completion now task scan index) (within : index < n) :
      DispatchMove state { state with
        dispatcher := .depth now task scan index
          (state.queues ⟨index, within⟩).estimatedCompletion }
  | assign {now : Instant} {task : QueuedTask} {scan : Scan} {index : Nat}
      (place : state.dispatcher = .completion now task scan index) (scanned : ¬ index < n)
      (chosen : scan.bestWorker < n) :
      DispatchMove state { state.setQueue ⟨scan.bestWorker, chosen⟩
          ((state.queues ⟨scan.bestWorker, chosen⟩).push task) with
        dispatcher := .after now task.priority }
  | keep {now workerCompletion : Instant} {task : QueuedTask} {scan : Scan} {index : Nat}
      (place : state.dispatcher = .depth now task scan index workerCompletion)
      (within : index < n) :
      DispatchMove state { state with
        dispatcher := .completion now task (scan.keep index
          (Scan.score task workerCompletion (state.queues ⟨index, within⟩).depth)) (index + 1) }

theorem dispatch_moves {state next : State n} (stepped : state.dispatch = some next) :
    DispatchMove state next := by
  cases place : state.dispatcher with
  | top =>
      simp only [dispatch, place, Option.some.injEq] at stepped
      cases stepped
      exact .top place
  | high now =>
      simp only [dispatch, place] at stepped
      split at stepped
      · rename_i taken
        cases stepped
        exact .takeHigh place taken
      · rename_i failed
        cases stepped
        exact .noHigh place failed
  | lower now rest =>
      cases rest with
      | nil =>
          simp only [dispatch, place, Option.some.injEq] at stepped
          cases stepped
          exact .lowerDone place
      | cons priority rest =>
          simp only [dispatch, place] at stepped
          split at stepped
          · rename_i taken
            cases stepped
            exact .takeLower place taken
          · rename_i failed
            cases stepped
            exact .skip place failed
  | completion now task scan index =>
      simp only [dispatch, place] at stepped
      split at stepped
      · rename_i within
        cases stepped
        exact .scan place within
      · rename_i scanned
        split at stepped
        · rename_i chosen
          cases stepped
          exact .assign place scanned chosen
        · cases stepped
  | depth now task scan index workerCompletion =>
      simp only [dispatch, place] at stepped
      split at stepped
      · rename_i within
        cases stepped
        exact .keep place within
      · cases stepped
  | returned => simp [dispatch, place] at stepped

/-- The dispatcher takes packets from the input queues and pushes a task into at most
one queue. -/
theorem DispatchMove.frame {state next : State n} (move : DispatchMove state next) :
    ∃ inputQueues queues dispatcher,
      (queues = state.queues ∨
        ∃ id task, queues = Function.update state.queues id ((state.queues id).push task)) ∧
      next = { state with inputQueues, queues, dispatcher } := by
  cases move with
  | assign place scanned chosen => exact ⟨_, _, _, .inr ⟨_, _, rfl⟩, rfl⟩
  | top | takeHigh | noHigh | takeLower | skip | lowerDone | scan | keep =>
      exact ⟨_, _, _, .inl rfl, rfl⟩

/-! ## Workers -/

/-- STEP 3.5 touches the trackers only. -/
theorem record_frame (state : State n) (finalPriority : Priority) (observedLatency : Duration) :
    ∃ mediumLatencyTracker lowLatencyTracker, state.record finalPriority observedLatency =
      { state with mediumLatencyTracker, lowLatencyTracker } := by
  cases finalPriority <;> exact ⟨_, _, rfl⟩

inductive WorkerMove (state : State n) (id : Fin n) : State n → Prop where
  | top (place : state.workers id = .top) :
      WorkerMove state id (state.goto id (if state.running then .pop else .returned))
  | idle (place : state.workers id = .pop) (empty : (state.queues id).heap = []) :
      WorkerMove state id (state.goto id .top)
  | guard {job : Job} {before after : Pc} (place : state.workers id = before)
      (guarding : before.Guarding job) (guarding' : after.Guarding job)
      (empty : ∀ priority ∈ before.polled, (state.inputQueues priority).queue = []) :
      WorkerMove state id (state.goto id after)
  | guardReceive {job : Job} {window : Window} {deadline : Instant} {priority : Priority}
      {packet : Packet} {remaining : Channel Packet}
      (place : state.workers id = .guardPoll job window deadline priority)
      (taken : (state.inputQueues priority).tryRecv = .ok (packet, remaining)) :
      WorkerMove state id
        ((state.setInput priority remaining).goto id (.guardReceived job priority packet))
  | guardReceived {job : Job} {priority : Priority} {packet : Packet}
      (place : state.workers id = .guardReceived job priority packet) :
      WorkerMove state id
        (state.goto id (.guardDisplace job (.of priority packet state.clock)))
  | guardDisplace {job : Job} {task : QueuedTask}
      (place : state.workers id = .guardDisplace job task) :
      WorkerMove state id (state.requeue id job.taskToProcess (.process (.of task)))
  | process {job : Job} (place : state.workers id = .process job) :
      WorkerMove state id (state.goto id (.busy job (.begin job.taskToProcess state.clock)))
  | slice {job : Job} {processing : Processing} {lastCheck : Instant} {before after : Pc}
      (place : state.workers id = before) (processes : before.Processes job processing)
      (processes' : after.Processes job { processing with lastCheck })
      (empty : ∀ priority ∈ before.polled, (state.inputQueues priority).queue = [])
      (unfinished : before = .busy job processing →
        state.clock - processing.start < processing.processingTime) :
      WorkerMove state id (state.goto id after)
  | receive {job : Job} {processing : Processing} {priority : Priority} {packet : Packet}
      {remaining : Channel Packet} (place : state.workers id = .poll job processing priority)
      (taken : (state.inputQueues priority).tryRecv = .ok (packet, remaining)) :
      WorkerMove state id
        ((state.setInput priority remaining).goto id (.received job processing priority packet))
  | received {job : Job} {processing : Processing} {priority : Priority} {packet : Packet}
      (place : state.workers id = .received job processing priority packet) :
      WorkerMove state id
        (state.goto id (.displace job processing (.of priority packet state.clock)))
  | displace {job : Job} {processing : Processing} {task : QueuedTask}
      (place : state.workers id = .displace job processing task) :
      WorkerMove state id (state.requeue id
        { job.taskToProcess with
          estimatedProcessing := processing.estimatedRemaining state.clock }
        (.restart (.of task) processing))
  | restart {job : Job} {processing : Processing}
      (place : state.workers id = .restart job processing) :
      WorkerMove state id (state.goto id (.busy job { processing with
        processingTime := job.taskToProcess.estimatedProcessing, start := state.clock }))
  | done {job : Job} {processing : Processing} (place : state.workers id = .busy job processing)
      (finished : ¬ state.clock - processing.start < processing.processingTime) :
      WorkerMove state id (state.goto id (.finish job))
  | finish {job : Job} (place : state.workers id = .finish job) :
      WorkerMove state id (state.goto id (.complete job state.clock))
  | complete {job : Job} {completionNow : Instant}
      (place : state.workers id = .complete job completionNow) :
      WorkerMove state id ((state.setQueue id
        { state.queues id with estimatedCompletion := completionNow }).goto id
          (.record job (completionNow - job.taskToProcess.packet.timestamp)))
  | record {job : Job} {observedLatency : Duration}
      {mediumLatencyTracker lowLatencyTracker : LatencyTracker}
      (place : state.workers id = .record job observedLatency)
      (recorded : state.record job.finalPriority observedLatency =
        { state with mediumLatencyTracker, lowLatencyTracker }) :
      WorkerMove state id
        ({ state with mediumLatencyTracker, lowLatencyTracker }.goto id (.forward job))

theorem runWorker_moves {state next : State n} {id : Fin n}
    (stepped : state.runWorker id = some next) : WorkerMove state id next := by
  cases place : state.workers id with
  | top =>
      simp only [runWorker, place, Option.some.injEq] at stepped
      cases stepped
      exact .top place
  | pop =>
      simp only [runWorker, place] at stepped
      split at stepped
      · rename_i empty
        cases stepped
        exact .idle place empty
      · cases stepped
  | popped job =>
      simp only [runWorker, place] at stepped
      split at stepped
      · cases stepped
        exact .guard place .popped (.guard _) (by simp [Pc.polled])
      · cases stepped
        exact .guard place .popped .process (by simp [Pc.polled])
  | guard job now =>
      simp only [runWorker, place] at stepped
      split at stepped
      · cases stepped
        exact .guard place (.guard now) (.guardStart _ _) (by simp [Pc.polled])
      · cases stepped
        exact .guard place (.guard now) .process (by simp [Pc.polled])
  | guardStart job safetyMargin guardThreshold =>
      simp only [runWorker, place, Option.some.injEq] at stepped
      cases stepped
      exact .guard place (.guardStart _ _) (.guardLoop _) (by simp [Pc.polled])
  | guardLoop job window =>
      simp only [runWorker, place] at stepped
      split at stepped
      · cases stepped
        exact .guard place (.guardLoop window) .process (by simp [Pc.polled])
      · cases stepped
        exact .guard place (.guardLoop window) (.guardSlice _ _) (by simp [Pc.polled])
  | guardSlice job window remaining =>
      simp only [runWorker, place, Option.some.injEq] at stepped
      cases stepped
      exact .guard place (.guardSlice _ _) (.guardSpin _ _) (by simp [Pc.polled])
  | guardSpin job window deadline =>
      simp only [runWorker, place] at stepped
      split at stepped
      · cases stepped
        exact .guard place (.guardSpin _ _) (.guardPoll _ _ _) (by simp [Pc.polled])
      · cases stepped
        exact .guard place (.guardSpin _ _) (.guardRecheck _) (by simp [Pc.polled])
  | guardPoll job window deadline priority =>
      simp only [runWorker, place] at stepped
      split at stepped
      · rename_i taken
        cases stepped
        exact .guardReceive place taken
      · rename_i failed
        cases stepped
        refine .guard place (.guardPoll _ _ _) (afterGuardPoll_guarding ..) ?_
        rintro _ ⟨⟩
        exact Channel.tryRecv_error failed
  | guardReceived job priority packet =>
      simp only [runWorker, place, Option.some.injEq] at stepped
      cases stepped
      exact .guardReceived place
  | guardDisplace job task =>
      simp only [runWorker, place, Option.some.injEq] at stepped
      cases stepped
      exact .guardDisplace place
  | guardRecheck job window =>
      simp only [runWorker, place] at stepped
      split at stepped
      · cases stepped
        exact .guard place (.guardRecheck window) .process (by simp [Pc.polled])
      · cases stepped
        exact .guard place (.guardRecheck window) (.guardLoop _) (by simp [Pc.polled])
  | process job =>
      simp only [runWorker, place, Option.some.injEq] at stepped
      cases stepped
      exact .process place
  | busy job processing =>
      simp only [runWorker, place] at stepped
      split at stepped
      · rename_i unfinished
        cases stepped
        exact .slice place .busy .check (by simp [Pc.polled]) fun _ => unfinished
      · rename_i finished
        cases stepped
        exact .done place finished
  | check job processing =>
      simp only [runWorker, place] at stepped
      split at stepped
      · cases stepped
        exact .slice place .check (.weigh _) (by simp [Pc.polled]) (by simp)
      · cases stepped
        exact .slice place .check .busy (by simp [Pc.polled]) (by simp)
  | weigh job processing now =>
      simp only [runWorker, place] at stepped
      split at stepped
      · cases stepped
        exact .slice place (.weigh now) (.poll _) (by simp [Pc.polled]) (by simp)
      · cases stepped
        exact .slice place (.weigh now) .busy (by simp [Pc.polled]) (by simp)
  | poll job processing priority =>
      simp only [runWorker, place] at stepped
      split at stepped
      · rename_i taken
        cases stepped
        exact .receive place taken
      · rename_i failed
        cases stepped
        refine .slice place (.poll priority) (afterPoll_processes ..) ?_ (by simp)
        rintro _ ⟨⟩
        exact Channel.tryRecv_error failed
  | received job processing priority packet =>
      simp only [runWorker, place, Option.some.injEq] at stepped
      cases stepped
      exact .received place
  | displace job processing task =>
      simp only [runWorker, place, Option.some.injEq] at stepped
      cases stepped
      exact .displace place
  | restart job processing =>
      simp only [runWorker, place, Option.some.injEq] at stepped
      cases stepped
      exact .restart place
  | finish job =>
      simp only [runWorker, place, Option.some.injEq] at stepped
      cases stepped
      exact .finish place
  | complete job completionNow =>
      simp only [runWorker, place, Option.some.injEq] at stepped
      cases stepped
      exact .complete place
  | record job observedLatency =>
      simp only [runWorker, place, Option.some.injEq] at stepped
      cases stepped
      obtain ⟨_, _, recorded⟩ := state.record_frame job.finalPriority observedLatency
      rw [recorded]
      exact .record place recorded
  | forward job | returned => simp [runWorker, place] at stepped

/-! ## All steps -/

inductive Moves (state : State n) : Action n → State n → Prop where
  | arrive (packet : Packet) (connected : (state.inputQueues packet.priority).disconnected = false) :
      Moves state (.arrive packet)
        (state.setInput packet.priority ((state.inputQueues packet.priority).send packet))
  | disconnect (priority : Priority) :
      Moves state (.disconnect priority)
        (state.setInput priority { state.inputQueues priority with disconnected := true })
  | tick (elapsed : Duration) :
      Moves state (.tick elapsed) { state with clock := state.clock + elapsed }
  | stop : Moves state .stop { state with running := false }
  | dispatch {next : State n} (move : DispatchMove state next) : Moves state .dispatch next
  | run {id : Fin n} {next : State n} (move : WorkerMove state id next) : Moves state (.run id) next
  | pop {id : Fin n} {task : QueuedTask} {queue : WorkerQueue} (place : state.workers id = .pop)
      (popped : (state.queues id).tryPop (some task) = some queue) :
      Moves state (.pop id task) ((state.setQueue id queue).goto id (.popped (.of task)))
  | forward {id : Fin n} {job : Job} {room : Bool} (place : state.workers id = .forward job) :
      Moves state (.forward id room) ({ state with
        outputQueues := state.outputQueues.set job.finalPriority
          ((state.outputQueues job.finalPriority).trySend (fun _ => room)
            job.taskToProcess.packet) }.goto id .top)

theorem step_moves {state next : State n} {action : Action n}
    (stepped : state.step action = some next) : Moves state action next := by
  cases action with
  | arrive packet =>
      simp only [step] at stepped
      split at stepped
      · cases stepped
      · rename_i connected
        cases stepped
        exact .arrive packet (Bool.eq_false_of_not_eq_true connected)
  | disconnect priority =>
      cases stepped
      exact .disconnect priority
  | tick elapsed =>
      cases stepped
      exact .tick elapsed
  | stop =>
      cases stepped
      exact .stop
  | dispatch => exact .dispatch (dispatch_moves stepped)
  | run id => exact .run (runWorker_moves stepped)
  | pop id task =>
      simp only [step, popWorker] at stepped
      split at stepped
      · rename_i place
        obtain ⟨queue, popped, rfl⟩ := Option.map_eq_some_iff.mp stepped
        exact .pop place popped
      · cases stepped
  | forward id room =>
      simp only [step, forwardWorker] at stepped
      split at stepped
      · rename_i place
        cases stepped
        exact .forward place
      · cases stepped

end State

end EdfPipeline.Cedf
