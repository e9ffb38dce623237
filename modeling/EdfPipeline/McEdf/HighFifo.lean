import EdfPipeline.McEdf.Conservation

/-!
# The FIFO queue of the High EDF

High packets that arrive in the order of their timestamps, all with one budget,
have virtual deadlines in that order. They stay in line from the input queue
through the batch of the dispatcher and the channel to the FIFO queue, although
some leave the line for another EDF.
-/

set_option autoImplicit false

namespace EdfPipeline.McEdf

open EarliestFirst TransitionSystem

namespace State

def highArrival (_ : State) : Action → Option Packet
  | .arrive packet => if packet.priority = .high then some packet else none
  | _ => none

/-- High packets arrive in the order of their timestamps, with this budget. -/
def ArrivesInOrder (budget : Duration) (history : State × Past State Action) : Action → Prop
  | .arrive packet => packet.priority = .high → packet.latencyBudget = budget ∧
      ∀ earlier ∈ observed highArrival history.2, earlier.timestamp ≤ packet.timestamp
  | _ => True

instance (budget : Duration) (history : State × Past State Action) (action : Action) :
    Decidable (ArrivesInOrder budget history action) :=
  match action with
  | .arrive _ => inferInstanceAs (Decidable (_ → _ ∧ ∀ earlier ∈ observed _ _, _))
  | .disconnect _ | .tick _ | .stop | .dispatch | .run _ | .pop _ _ | .await _ _ | .reorder
  | .forward _ => inferInstanceAs (Decidable True)

/-- All tasks on the input channels of the High EDF. -/
def highInputs (state : State) : List EDFTask :=
  Priority.all.flatMap fun priority => (state.edfInputs .high priority).queue

/-- What the High EDF takes from its FIFO queue, a heap that holds the FIFO queue and
the input channels could pop. -/
def FifoEarliest (state : State) : Prop :=
  (state.workers .high).pc = .pop → ∀ task ∈ ((state.workers .high).highQueue.getD []).head?,
    Earliest EDFTask.virtualDeadline task
      ((state.workers .high).highQueue.getD [] ++ state.highInputs)

instance (state : State) : Decidable state.FifoEarliest :=
  inferInstanceAs (Decidable (_ → ∀ task ∈ List.head? _, _))

/-- The High tasks the dispatcher has and those it will make. -/
def undispatched (state : State) : List EDFTask :=
  state.dispatcher.batch ++ (state.inputQueues .high).queue.map (EDFTask.of .high)

/-- The High tasks on their way to the High EDF, the next one to be processed first. -/
def line (state : State) : List EDFTask :=
  (state.workers .high).highQueue.getD [] ++
    ((state.edfInputs .high .high).queue ++ state.undispatched)

/-- The High EDF has a FIFO queue, holds no task back and gets only High tasks. -/
structure OnlyHigh (state : State) : Prop where
  fifo : (state.workers .high).highQueue.isSome
  free : ∀ task, (state.workers .high).pc ≠ .timeout task
  unheld : ∀ task deadline, (state.workers .high).pc ≠ .wait task deadline
  lower : ∀ priority, priority ≠ .high → (state.edfInputs .high priority).queue = []

structure Lined (budget : Duration) (history : State × Past State Action) : Prop where
  only : history.1.OnlyHigh
  sorted : history.1.line.Pairwise
    fun earlier later => earlier.virtualDeadline ≤ later.virtualDeadline
  made : ∀ task ∈ history.1.line, ∃ packet ∈ observed highArrival history.2,
    task = .of .high packet
  budgets : ∀ packet ∈ observed highArrival history.2, packet.latencyBudget = budget

theorem initial_lined (budget : Duration) : Lined budget (initial, []) where
  only := ⟨rfl, nofun, nofun, fun _ _ => rfl⟩
  sorted := List.Pairwise.nil
  made := nofun
  budgets := nofun

/-- The virtual deadlines of one budget are ordered like the timestamps. -/
theorem virtualDeadline_mono {earlier later : Packet} (budget : earlier.latencyBudget = later.latencyBudget)
    (timestamps : earlier.timestamp ≤ later.timestamp) :
    (EDFTask.of .high earlier).virtualDeadline ≤ (EDFTask.of .high later).virtualDeadline := by
  simp only [EDFTask.of, budget]
  exact Nat.add_le_add_right timestamps _

/-! ## Steps -/

/-- Tasks only leave the line. -/
structure Shortens (state next : State) : Prop where
  only : next.OnlyHigh
  line : next.line.Sublist state.line

theorem WorkerMove.apart {state next : State} {channel other : EdfChannel}
    (move : WorkerMove state channel next) (elsewhere : other ≠ channel) :
    next.workers other = state.workers other ∧ next.edfInputs other = state.edfInputs other ∧
      next.dispatcher = state.dispatcher ∧ next.inputQueues = state.inputQueues := by
  cases move with
  | keep same => exact ⟨Function.update_of_ne elsewhere .., rfl, rfl, rfl⟩
  | gain received gained =>
      exact ⟨Function.update_of_ne elsewhere .., Function.update_of_ne elsewhere .., rfl, rfl⟩
  | output released => exact ⟨Function.update_of_ne elsewhere .., rfl, rfl, rfl⟩

theorem Shortens.still {state next : State} (only : state.OnlyHigh)
    (workers : next.workers .high = state.workers .high)
    (inputs : next.edfInputs .high = state.edfInputs .high)
    (dispatcher : next.dispatcher = state.dispatcher)
    (queues : next.inputQueues .high = state.inputQueues .high) : Shortens state next where
  only := by
    constructor
    · exact workers ▸ only.fifo
    · exact workers ▸ only.free
    · exact workers ▸ only.unheld
    · exact inputs ▸ only.lower
  line := by
    rw [State.line, State.line, undispatched, undispatched, workers, inputs, dispatcher, queues]

theorem WorkerMove.shortens {state next : State} {channel : EdfChannel} (only : state.OnlyHigh)
    (move : WorkerMove state channel next) (elsewhere : channel ≠ .high) : Shortens state next := by
  obtain ⟨workers, inputs, dispatcher, queues⟩ := move.apart (Ne.symm elsewhere)
  exact .still only workers inputs dispatcher (congrFun queues _)

/-- The dispatcher changes the line only at its end. -/
theorem Shortens.dispatched {state next : State} (only : state.OnlyHigh)
    (workers : next.workers .high = state.workers .high)
    (inputs : next.edfInputs .high = state.edfInputs .high)
    (left : next.undispatched.Sublist state.undispatched) : Shortens state next where
  only := ⟨workers ▸ only.fifo, workers ▸ only.free, workers ▸ only.unheld, inputs ▸ only.lower⟩
  line := by
    rw [State.line, State.line, workers, inputs]
    exact (left.append_left _).append_left _

theorem after_batch (priority : Priority) : (DispatcherPc.after priority).batch = [] := by
  cases priority <;> rfl

theorem DispatchMove.shortens {state next : State} (only : state.OnlyHigh)
    (move : DispatchMove state next) : Shortens state next := by
  cases move with
  | top place =>
      refine .dispatched only rfl rfl ?_
      rw [undispatched, undispatched, place]
      split <;> exact List.Sublist.refl _
  | collect place room front =>
      refine .dispatched only rfl rfl ?_
      simp [undispatched, place, DispatcherPc.batch, setInput, front]
  | collected place ends =>
      rename_i now highBatch
      have leave : (if highBatch = [] then DispatcherPc.after .high else .assign highBatch).batch =
          highBatch.map Batched.task := by
        split
        · rename_i empty
          rw [empty]
          rfl
        · rfl
      refine .dispatched only rfl rfl ?_
      simp only [undispatched, leave, place]
      exact List.Sublist.refl _
  | assign place =>
      refine .dispatched only rfl rfl ?_
      simp [undispatched, place, DispatcherPc.batch, Function.comp_def]
  | send place =>
      rename_i channel batched rest
      by_cases here : channel = .high
      · subst here
        constructor
        · refine ⟨only.fifo, only.free, only.unheld, ?_⟩
          intro priority different
          simpa [sendTask, setEdfInput, different] using only.lower priority different
        · simp [State.line, undispatched, sendTask, setEdfInput, Channel.send, place,
            DispatcherPc.batch]
      · refine .dispatched only rfl (Function.update_of_ne (Ne.symm here) ..) ?_
        simp [undispatched, place, DispatcherPc.batch, sendTask, setEdfInput]
  | sent place =>
      refine .dispatched only rfl rfl ?_
      simp [undispatched, place, DispatcherPc.batch, DispatcherPc.after]
  | record place =>
      refine .dispatched only rfl rfl ?_
      simp [undispatched, place, DispatcherPc.batch]
  | receive place front =>
      rename_i priority packet remaining
      refine .dispatched only rfl rfl ?_
      simp only [undispatched, place, DispatcherPc.batch, List.nil_append]
      refine List.Sublist.map _ ?_
      by_cases here : priority = .high
      · subst here
        simp [setInput, front]
      · simp [setInput, PriorityTable.set_other (Ne.symm here)]
  | skip place empty =>
      have batch : state.dispatcher.batch = [] := place ▸ rfl
      refine .dispatched only rfl rfl ?_
      simp only [undispatched, after_batch, batch]
      exact List.Sublist.refl _
  | deliver place =>
      rename_i task
      have batch : state.dispatcher.batch = [] := place ▸ rfl
      have elsewhere : (lowerRoute task.priority).1 ≠ .high := by
        cases task.priority <;> decide
      refine .dispatched only rfl (Function.update_of_ne (Ne.symm elsewhere) ..) ?_
      simp only [undispatched, after_batch, batch]
      exact List.Sublist.refl _

/-- The High EDF takes at most the front of its FIFO queue. -/
theorem Shortens.worked {state : State} (only : state.OnlyHigh) {worker : EdfWorker}
    {fifo left : List EDFTask} (queue : (state.workers .high).highQueue = some fifo)
    (free : ∀ task, worker.pc ≠ .timeout task) (unheld : ∀ task deadline, worker.pc ≠ .wait task deadline)
    (same : worker.highQueue = some left) (shorter : left.Sublist fifo) :
    Shortens state (state.setWorker .high worker) := by
  constructor
  · refine ⟨?_, ?_, ?_, only.lower⟩
    · rw [setWorker_workers, same]
      rfl
    · rwa [setWorker_workers]
    · rwa [setWorker_workers]
  · rw [State.line, State.line, setWorker_workers, same, queue]
    exact shorter.append_right _

theorem Shortens.goto {state : State} (only : state.OnlyHigh) {pc : WorkerPc}
    (free : ∀ task, pc ≠ .timeout task) (unheld : ∀ task deadline, pc ≠ .wait task deadline) :
    Shortens state (state.setWorker .high ((state.workers .high).goto pc)) := by
  obtain ⟨fifo, queue⟩ := Option.isSome_iff_exists.mp only.fifo
  exact .worked only queue free unheld queue (List.Sublist.refl _)

/-- A task received joins the FIFO queue at its end. -/
theorem Shortens.received {state : State} (only : state.OnlyHigh) {task : EDFTask}
    {remaining : Channel EDFTask}
    (front : (state.edfInputs .high .high).queue = task :: remaining.queue) :
    Shortens state ((state.setEdfInput .high .high remaining).setWorker .high
      (((state.workers .high).push [task]).goto .pop)) := by
  obtain ⟨fifo, queue⟩ := Option.isSome_iff_exists.mp only.fifo
  have pushed : ((state.workers .high).push [task]).highQueue = some (fifo ++ [task]) := by
    simp only [EdfWorker.push, queue]
  constructor
  · refine ⟨?_, ?_, ?_, ?_⟩
    · simp [setWorker, EdfWorker.goto, pushed]
    · simp [setWorker, EdfWorker.goto]
    · simp [setWorker, EdfWorker.goto]
    · intro priority different
      simpa [setWorker, setEdfInput, different] using only.lower priority different
  · simp [State.line, undispatched, setWorker, setEdfInput, EdfWorker.goto, pushed, queue, front]

/-- A task received past the FIFO queue leaves the line. -/
theorem Shortens.passed {state : State} (only : state.OnlyHigh) {task : EDFTask}
    {remaining : Channel EDFTask} {pc : WorkerPc}
    (front : (state.edfInputs .high .high).queue = task :: remaining.queue)
    (free : ∀ task, pc ≠ .timeout task) (unheld : ∀ task deadline, pc ≠ .wait task deadline) :
    Shortens state ((state.setEdfInput .high .high remaining).setWorker .high
      ((state.workers .high).goto pc)) := by
  obtain ⟨fifo, queue⟩ := Option.isSome_iff_exists.mp only.fifo
  constructor
  · refine ⟨?_, ?_, ?_, ?_⟩
    · simp [setWorker, EdfWorker.goto, queue]
    · simpa [setWorker, EdfWorker.goto] using free
    · simpa [setWorker, EdfWorker.goto] using unheld
    · intro priority different
      simpa [setWorker, setEdfInput, different] using only.lower priority different
  · simp [State.line, undispatched, setWorker, setEdfInput, EdfWorker.goto, front]

theorem enter_not_timeout (worker : EdfWorker) (task : EDFTask) : worker.enter ≠ .timeout task := by
  unfold EdfWorker.enter
  split <;> simp

theorem enter_not_wait (worker : EdfWorker) (task : EDFTask) (deadline : Instant) :
    worker.enter ≠ .wait task deadline := by
  unfold EdfWorker.enter
  split <;> simp

theorem RunMove.shortens {state next : State} (move : RunMove state .high next)
    (only : state.OnlyHigh) (high : ∀ task ∈ state.line, task.priority = .high) :
    Shortens state next := by
  obtain ⟨fifo, queue⟩ := Option.isSome_iff_exists.mp only.fifo
  cases move with
  | @putBack task newTask deadline remaining place received =>
      exact absurd place (only.unheld task deadline)
  | @proceed task deadline error place failed due => exact absurd place (only.unheld task deadline)
  | top place =>
      split
      · exact .goto only (enter_not_timeout _) (enter_not_wait _)
      · exact .goto only (by simp) (by simp)
  | receiveHigh place received => exact .received only (Channel.tryRecv_ok received).1
  | lowerDone place =>
      exact .worked only queue (by simp [EdfWorker.goto]) (by simp [EdfWorker.goto]) queue
        (List.Sublist.refl _)
  | @receiveLower priority rest receivedTasks task remaining place received =>
      have front := (Channel.tryRecv_ok received).1
      have isHigh : priority = .high := by
        by_contra different
        rw [only.lower priority different] at front
        cases front
      subst isHigh
      exact .passed only front (by simp) (by simp)
  | @popFifo task fifo place queue =>
      have processed : EdfWorker.afterPop task = .process task := by
        refine if_pos (high task ?_)
        simp [State.line, queue]
      refine .worked only queue ?_ ?_ rfl (List.sublist_cons_self task fifo)
      · simp [processed]
      · simp [processed]
  | spin place unfinished => exact .still only rfl rfl rfl rfl
  | output place =>
      have moved : Shortens state (state.setWorker .high ((state.workers .high).goto .top)) :=
        .goto only (by simp) (by simp)
      exact ⟨⟨moved.only.fifo, moved.only.free, moved.only.unheld, only.lower⟩, moved.line⟩
  | noHigh | skipLower | idle | process | done => exact .goto only (by simp) (by simp)

/-- Every step but an arrival only shortens the line. -/
theorem step_shortens {state next : State} {action : Action} (only : state.OnlyHigh)
    (high : ∀ task ∈ state.line, task.priority = .high)
    (quiet : state.highArrival action = none) (stepped : state.step action = some next) :
    Shortens state next := by
  cases action with
  | arrive packet =>
      have elsewhere : packet.priority ≠ .high := by
        intro here
        simp [highArrival, here] at quiet
      simp only [step] at stepped
      split at stepped <;> cases stepped
      exact .still only rfl rfl rfl (PriorityTable.set_other (Ne.symm elsewhere))
  | disconnect priority =>
      cases stepped
      refine ⟨⟨only.fifo, only.free, only.unheld, only.lower⟩, ?_⟩
      by_cases here : priority = .high
      · subst here
        simp [State.line, undispatched, setInput]
      · simp [State.line, undispatched, setInput, PriorityTable.set_other (Ne.symm here)]
  | tick elapsed | stop =>
      cases stepped
      exact .still only rfl rfl rfl rfl
  | dispatch => exact (dispatch_moves stepped).shortens only
  | run channel =>
      by_cases here : channel = .high
      · subst here
        exact (runWorker_moves stepped).shortens only high
      · exact (runWorker_move stepped).shortens only here
  | pop channel task =>
      have elsewhere : channel ≠ .high := by
        intro here
        subst here
        have fifo := only.fifo
        simp only [step, popWorker] at stepped
        split at stepped
        · rename_i enabled
          rw [enabled.2.1] at fifo
          cases fifo
        · cases stepped
      exact (popWorker_move stepped).shortens only elsewhere
  | await channel timeout =>
      have elsewhere : channel ≠ .high := by
        intro here
        subst here
        simp only [step, awaitWorker] at stepped
        split at stepped
        · rename_i task place
          exact only.free task place
        · cases stepped
      exact (awaitWorker_move stepped).shortens only elsewhere
  | reorder =>
      obtain ⟨_, _, _, rfl⟩ := (runReorder_moves stepped).frame
      exact .still only rfl rfl rfl rfl
  | forward room =>
      obtain ⟨_, _, _, rfl⟩ := (forwardReorder_moves stepped).frame
      exact .still only rfl rfl rfl rfl

theorem Lined.high {budget : Duration} {history : State × Past State Action}
    (lined : Lined budget history) : ∀ task ∈ history.1.line, task.priority = .high := by
  intro task member
  obtain ⟨packet, _, made⟩ := lined.made task member
  rw [made]
  rfl

theorem step_lined {budget : Duration} {history next : State × Past State Action} {action : Action}
    (lined : Lined budget history) (ordered : ArrivesInOrder budget history action)
    (stepped : recorded step history action = some next) : Lined budget next := by
  have high := lined.high
  obtain ⟨state, past⟩ := history
  obtain ⟨after, later⟩ := next
  obtain ⟨moved, rfl⟩ := recorded_eq_some.mp stepped
  obtain ⟨only, sorted, made, budgets⟩ := lined
  cases arrival : state.highArrival action with
  | none =>
      have shortens := step_shortens only high arrival moved
      refine ⟨shortens.only, sorted.sublist shortens.line, ?_, ?_⟩
      · intro task member
        rw [observed_none arrival]
        exact made task (shortens.line.subset member)
      · rw [observed_none arrival]
        exact budgets
  | some packet =>
      cases action with
      | arrive arrived =>
          obtain ⟨isHigh, same⟩ : arrived.priority = .high ∧ arrived = packet := by
            simp only [highArrival] at arrival
            split at arrival
            · rename_i isHigh
              exact ⟨isHigh, Option.some.inj arrival⟩
            · cases arrival
          subst same
          obtain ⟨budget_eq, timestamps⟩ := ordered isHigh
          simp only [step] at moved
          split at moved <;> cases moved
          have grown : State.line (state.setInput arrived.priority
              ((state.inputQueues arrived.priority).send arrived)) =
                state.line ++ [.of .high arrived] := by
            simp [State.line, undispatched, setInput, isHigh, Channel.send]
          refine ⟨⟨only.fifo, only.free, only.unheld, only.lower⟩, ?_, ?_, ?_⟩
          · rw [grown]
            refine List.pairwise_append.mpr ⟨sorted, List.pairwise_singleton _ _, ?_⟩
            intro task member newTask last
            obtain ⟨earlier, before, made⟩ := made task member
            rw [made, List.mem_singleton.mp last]
            exact virtualDeadline_mono ((budgets earlier before).trans budget_eq.symm)
              (timestamps earlier before)
          · rw [grown, observed_some arrival]
            intro task member
            rcases List.mem_append.mp member with old | last
            · obtain ⟨earlier, before, made⟩ := made task old
              exact ⟨earlier, List.mem_append_left _ before, made⟩
            · exact ⟨arrived, by simp, List.mem_singleton.mp last⟩
          · exact forall_observed budgets fun seen now => by
              rw [arrival] at now
              cases now
              exact budget_eq
      | disconnect | tick | stop | dispatch | run | pop | await | reorder | forward => cases arrival

theorem OnlyHigh.inputs {state : State} (only : state.OnlyHigh) :
    state.highInputs = (state.edfInputs .high .high).queue := by
  simp [highInputs, Priority.all, only.lower]

/-- The head of the line is the earliest task of the FIFO queue and the channels. -/
theorem Lined.fifoEarliest {budget : Duration} {history : State × Past State Action}
    (lined : Lined budget history) : history.1.FifoEarliest := by
  intro _ task first
  rw [lined.only.inputs]
  obtain ⟨rest, queue⟩ := List.head?_eq_some_iff.mp first
  have sorted := lined.sorted
  rw [State.line, queue, List.cons_append] at sorted
  obtain ⟨least, _⟩ := List.pairwise_cons.mp sorted
  rw [queue]
  refine ⟨List.mem_cons_self, ?_⟩
  intro other member
  rcases List.mem_cons.mp member with same | behind
  · rw [same]
  · refine least other ?_
    rw [← List.append_assoc]
    exact List.mem_append_left _ behind

end State

/-- Two High packets come in one batch and one of them has been received. -/
def batchedRun : List Action :=
  [.arrive (offeredPacket 0 .high), .arrive (offeredPacket 1 .high)] ++ dispatchHigh ++
    List.replicate 2 (.run .high)

end EdfPipeline.McEdf
