import EdfPipeline.McEdf.System

/-!
# Steps of MC-EDF

What each thread can do in one step: the dispatcher, a worker and the re-ordering
stage. What they leave alone is read off from here.
-/

set_option autoImplicit false

namespace EdfPipeline.McEdf

open EarliestFirst

theorem EdfChannel.mem_all (channel : EdfChannel) : channel ∈ EdfChannel.all := by
  cases channel <;> decide

theorem EdfChannel.priority_injective : Function.Injective EdfChannel.priority := by
  intro channel other same
  cases channel <;> cases other <;> first | rfl | cases same

/-- A channel comes before another one in the scan of the buffers. -/
def EdfChannel.Before (channel other : EdfChannel) : Prop :=
  channel = .high ∧ other ≠ .high ∨ channel = .medium ∧ other = .low

theorem EdfChannel.all_pairwise : EdfChannel.all.Pairwise EdfChannel.Before := by
  simp [EdfChannel.all, EdfChannel.Before]

namespace Reorder

theorem keepEarliest_eq_keepLeast (reorder : Reorder) :
    reorder.keepEarliest =
      keepLeast fun channel => (reorder.buffers channel).map OrderedPacket.deadline := by
  funext best channel
  cases found : reorder.buffers channel with
  | none => simp only [keepEarliest, keepLeast, found, Option.map_none]
  | some ordered => cases best <;> simp only [keepEarliest, keepLeast, found, Option.map_some]

/-- The scan finds a buffered packet with a least deadline, if any is buffered. -/
theorem earliest_spec (reorder : Reorder) :
    (reorder.earliest = none ∧ ∀ channel, reorder.buffers channel = none) ∨
      ∃ channel ordered, reorder.earliest = some (channel, ordered.deadline) ∧
        reorder.buffers channel = some ordered ∧
        ∀ other, ∀ packet ∈ reorder.buffers other, ordered.deadline ≤ packet.deadline := by
  have first := foldl_keepLeast (fun channel => (reorder.buffers channel).map OrderedPacket.deadline)
    EdfChannel.all_pairwise
  rw [← keepEarliest_eq_keepLeast] at first
  change FirstLeast _ _ _ reorder.earliest at first
  cases found : reorder.earliest with
  | none =>
      rw [found] at first
      refine .inl ⟨rfl, ?_⟩
      intro channel
      exact Option.map_eq_none_iff.mp (first channel channel.mem_all)
  | some best =>
      obtain ⟨channel, deadline⟩ := best
      rw [found] at first
      obtain ⟨_, held, least⟩ := first
      obtain ⟨ordered, here, rfl⟩ := Option.map_eq_some_iff.mp held
      refine .inr ⟨channel, ordered, rfl, here, ?_⟩
      intro other packet there
      have value : (reorder.buffers other).map OrderedPacket.deadline = some packet.deadline :=
        Option.map_eq_some_iff.mpr ⟨packet, there, rfl⟩
      rcases least other other.mem_all packet.deadline value with less | ⟨same, _⟩
      · exact less.le
      · exact same.le

end Reorder

def WorkerPc.held : WorkerPc → List EDFTask
  | .receiveLower _ receivedTasks => receivedTasks
  | .timeout task | .wait task _ | .process task | .busy task _ | .output task => [task]
  | _ => []

def EdfWorker.tasks (worker : EdfWorker) : List EDFTask :=
  worker.highQueue.getD [] ++ worker.heap ++ worker.pc.held

theorem EdfWorker.held_afterPop (task : EDFTask) : (afterPop task).held = [task] := by
  unfold afterPop
  split <;> rfl

theorem EdfWorker.held_enter (worker : EdfWorker) : worker.enter.held = [] := by
  unfold enter
  split <;> rfl

theorem EdfWorker.push_tasks (worker : EdfWorker) (tasks : List EDFTask) {pc : WorkerPc}
    (free : pc.held = []) : ((worker.push tasks).goto pc).tasks.Perm
      (tasks ++ (worker.highQueue.getD [] ++ worker.heap)) := by
  unfold push
  split
  · rename_i fifo queue
    simp only [goto, EdfWorker.tasks, free, queue, Option.getD_some, List.append_nil,
      List.append_assoc]
    exact List.perm_append_comm_assoc _ _ _
  · rename_i queue
    simp [goto, EdfWorker.tasks, free, queue]

namespace State

/-- What a step of the dispatcher can do. -/
inductive DispatchMove (state : State) : State → Prop where
  | top (place : state.dispatcher = .top) :
      DispatchMove state { state with
        dispatcher := if state.running then .collect state.clock [] else .returned }
  | collect {now : Instant} {highBatch : List Batched} {packet : Packet} {remaining : Channel Packet}
      (place : state.dispatcher = .collect now highBatch) (room : highBatch.length < batchLimit)
      (front : (state.inputQueues .high).queue = packet :: remaining.queue) :
      DispatchMove state { state.setInput .high remaining with
        dispatcher := .collect now
          (highBatch ++ [{ task := .of .high packet, deadlineSlack := packet.deadline - now }]) }
  | collected {now : Instant} {highBatch : List Batched}
      (place : state.dispatcher = .collect now highBatch)
      (ends : highBatch.length < batchLimit → (state.inputQueues .high).queue = []) :
      DispatchMove state { state with
        dispatcher := if highBatch = [] then .after .high else .assign highBatch }
  | assign {highBatch : List Batched} (place : state.dispatcher = .assign highBatch) :
      DispatchMove state { state with
        dispatcher := .send
          (highBatch.map fun batched => (state.distributionStats.findBestChannel, batched)) }
  | send {channel : EdfChannel} {batched : Batched} {rest : List (EdfChannel × Batched)}
      (place : state.dispatcher = .send ((channel, batched) :: rest)) :
      DispatchMove state { state.sendTask channel .high batched.task with
        dispatcher := .recordDistribution channel batched.deadlineSlack rest }
  | sent (place : state.dispatcher = .send []) :
      DispatchMove state { state with dispatcher := .after .high }
  | record {channel : EdfChannel} {deadlineSlack : Duration} {rest : List (EdfChannel × Batched)}
      (place : state.dispatcher = .recordDistribution channel deadlineSlack rest) :
      DispatchMove state { state with
        distributionStats :=
          state.distributionStats.recordDistributionWithSlack channel deadlineSlack
        dispatcher := .send rest }
  | receive {priority : Priority} {packet : Packet} {remaining : Channel Packet}
      (place : state.dispatcher = .receive priority)
      (front : (state.inputQueues priority).queue = packet :: remaining.queue) :
      DispatchMove state { state.setInput priority remaining with
        dispatcher := .deliver (.of priority packet) }
  | skip {priority : Priority} (place : state.dispatcher = .receive priority)
      (empty : (state.inputQueues priority).queue = []) :
      DispatchMove state { state with dispatcher := .after priority }
  | deliver {task : EDFTask} (place : state.dispatcher = .deliver task) :
      DispatchMove state
        { state.sendTask (lowerRoute task.priority).1 (lowerRoute task.priority).2 task with
          dispatcher := .after task.priority }

theorem dispatch_moves {state next : State} (stepped : state.dispatch = some next) :
    DispatchMove state next := by
  cases place : state.dispatcher with
  | top =>
      simp only [dispatch, place, Option.some.injEq] at stepped
      cases stepped
      exact .top place
  | collect now highBatch =>
      simp only [dispatch, place] at stepped
      split at stepped
      · rename_i room
        split at stepped
        · rename_i packet remaining received
          cases stepped
          exact .collect place room (Channel.tryRecv_ok received).1
        · rename_i failed
          cases stepped
          exact .collected place fun _ => Channel.tryRecv_error failed
      · rename_i full
        cases stepped
        exact .collected place fun room => absurd room full
  | assign highBatch =>
      simp only [dispatch, place, Option.some.injEq] at stepped
      cases stepped
      exact .assign place
  | send channels =>
      cases channels with
      | nil =>
          simp only [dispatch, place, Option.some.injEq] at stepped
          cases stepped
          exact .sent place
      | cons entry rest =>
          simp only [dispatch, place, Option.some.injEq] at stepped
          cases stepped
          exact .send place
  | recordDistribution channel deadlineSlack rest =>
      simp only [dispatch, place, Option.some.injEq] at stepped
      cases stepped
      exact .record place
  | receive priority =>
      simp only [dispatch, place] at stepped
      split at stepped
      · rename_i packet remaining received
        cases stepped
        exact .receive place (Channel.tryRecv_ok received).1
      · rename_i failed
        cases stepped
        exact .skip place (Channel.tryRecv_error failed)
  | deliver task =>
      simp only [dispatch, place, Option.some.injEq] at stepped
      cases stepped
      exact .deliver place
  | returned => simp [dispatch, place] at stepped

/-- The dispatcher moves packets from the input queues to the input channels of the EDFs. -/
theorem DispatchMove.frame {state next : State} (move : DispatchMove state next) :
    ∃ inputQueues distributionStats edfInputs dispatcher,
      next = { state with inputQueues, distributionStats, edfInputs, dispatcher } := by
  cases move <;> exact ⟨_, _, _, _, rfl⟩

/-! ## Workers -/

theorem setWorker_workers (state : State) (channel : EdfChannel) (worker : EdfWorker) :
    (state.setWorker channel worker).workers channel = worker :=
  Function.update_self ..

/-- What a step of a worker does to its tasks: nothing, gain the first one of an
input queue, or hand one to the re-ordering stage. -/
inductive WorkerMove (state : State) (channel : EdfChannel) : State → Prop where
  | keep {worker : EdfWorker} (same : worker.tasks.Perm (state.workers channel).tasks) :
      WorkerMove state channel (state.setWorker channel worker)
  | gain {worker : EdfWorker} {priority : Priority} {task : EDFTask} {remaining : Channel EDFTask}
      (received : (state.edfInputs channel priority).queue = task :: remaining.queue)
      (gained : worker.tasks.Perm (task :: (state.workers channel).tasks)) :
      WorkerMove state channel ((state.setEdfInput channel priority remaining).setWorker channel worker)
  | output {worker : EdfWorker} {task : EDFTask}
      (released : (state.workers channel).tasks.Perm (task :: worker.tasks)) :
      WorkerMove state channel ((state.setEdfOutput channel
        ((state.edfOutputs channel).send task.packet)).setWorker channel worker)

theorem WorkerMove.goto {state : State} {channel : EdfChannel} {before pc : WorkerPc}
    (place : (state.workers channel).pc = before) (same : pc.held = before.held) :
    WorkerMove state channel (state.setWorker channel ((state.workers channel).goto pc)) := by
  refine .keep (List.Perm.of_eq ?_)
  rw [EdfWorker.tasks, EdfWorker.tasks, EdfWorker.goto, place, same]

theorem WorkerMove.stay (state : State) (channel : EdfChannel) : WorkerMove state channel state := by
  have same : state.setWorker channel (state.workers channel) = state := by
    rw [setWorker, Function.update_eq_self]
  have kept : WorkerMove state channel (state.setWorker channel (state.workers channel)) :=
    .keep (List.Perm.refl _)
  rwa [same] at kept

theorem WorkerMove.frame {state next : State} {channel : EdfChannel}
    (move : WorkerMove state channel next) :
    next.outputQueues = state.outputQueues ∧ next.dispatcher = state.dispatcher ∧
      next.distributionStats = state.distributionStats := by
  cases move <;> exact ⟨rfl, rfl, rfl⟩

/-- A step of `edf_worker_loop`, with what the worker saw. -/
inductive RunMove (state : State) (channel : EdfChannel) : State → Prop where
  | top (place : (state.workers channel).pc = .top) :
      RunMove state channel (state.setWorker channel ((state.workers channel).goto
        (if state.running then (state.workers channel).enter else .returned)))
  | receiveHigh {task : EDFTask} {remaining : Channel EDFTask}
      (place : (state.workers channel).pc = .receiveHigh)
      (received : (state.edfInputs channel .high).tryRecv = .ok (task, remaining)) :
      RunMove state channel ((state.setEdfInput channel .high remaining).setWorker channel
        (((state.workers channel).push [task]).goto .pop))
  | noHigh {error : TryRecvError} (place : (state.workers channel).pc = .receiveHigh)
      (failed : (state.edfInputs channel .high).tryRecv = .error error) :
      RunMove state channel (state.setWorker channel
        ((state.workers channel).goto (.receiveLower [.medium, .low, .bestEffort] [])))
  | lowerDone {receivedTasks : List EDFTask}
      (place : (state.workers channel).pc = .receiveLower [] receivedTasks) :
      RunMove state channel (state.setWorker channel
        (((state.workers channel).pushHeap receivedTasks).goto .pop))
  | receiveLower {priority : Priority} {rest : List Priority} {receivedTasks : List EDFTask}
      {task : EDFTask} {remaining : Channel EDFTask}
      (place : (state.workers channel).pc = .receiveLower (priority :: rest) receivedTasks)
      (received : (state.edfInputs channel priority).tryRecv = .ok (task, remaining)) :
      RunMove state channel ((state.setEdfInput channel priority remaining).setWorker channel
        ((state.workers channel).goto (.receiveLower (priority :: rest) (receivedTasks ++ [task]))))
  | skipLower {priority : Priority} {rest : List Priority} {receivedTasks : List EDFTask}
      {error : TryRecvError}
      (place : (state.workers channel).pc = .receiveLower (priority :: rest) receivedTasks)
      (failed : (state.edfInputs channel priority).tryRecv = .error error) :
      RunMove state channel (state.setWorker channel
        ((state.workers channel).goto (.receiveLower rest receivedTasks)))
  | popFifo {task : EDFTask} {fifo : List EDFTask} (place : (state.workers channel).pc = .pop)
      (queue : (state.workers channel).highQueue = some (task :: fifo)) :
      RunMove state channel (state.setWorker channel
        { state.workers channel with highQueue := some fifo, pc := EdfWorker.afterPop task })
  | idle (place : (state.workers channel).pc = .pop)
      (empty : (state.workers channel).highQueue.getD (state.workers channel).heap = []) :
      RunMove state channel (state.setWorker channel ((state.workers channel).goto .top))
  | putBack {task newTask : EDFTask} {deadline : Instant} {remaining : Channel EDFTask}
      (place : (state.workers channel).pc = .wait task deadline)
      (received : (state.edfInputs channel .high).tryRecv = .ok (newTask, remaining)) :
      RunMove state channel ((state.setEdfInput channel .high remaining).setWorker channel
        (((state.workers channel).push [newTask, task]).goto .top))
  | proceed {task : EDFTask} {deadline : Instant} {error : TryRecvError}
      (place : (state.workers channel).pc = .wait task deadline)
      (failed : (state.edfInputs channel .high).tryRecv = .error error)
      (due : error = .empty → deadline ≤ state.clock) :
      RunMove state channel (state.setWorker channel ((state.workers channel).goto (.process task)))
  | process {task : EDFTask} (place : (state.workers channel).pc = .process task) :
      RunMove state channel (state.setWorker channel
        ((state.workers channel).goto (.busy task state.clock)))
  | spin {task : EDFTask} {processStart : Instant}
      (place : (state.workers channel).pc = .busy task processStart)
      (unfinished : state.clock - processStart < processingDuration task.packet) :
      RunMove state channel state
  | done {task : EDFTask} {processStart : Instant}
      (place : (state.workers channel).pc = .busy task processStart)
      (finished : ¬ state.clock - processStart < processingDuration task.packet) :
      RunMove state channel (state.setWorker channel ((state.workers channel).goto (.output task)))
  | output {task : EDFTask} (place : (state.workers channel).pc = .output task) :
      RunMove state channel ((state.setEdfOutput channel
        ((state.edfOutputs channel).send task.packet)).setWorker channel
          ((state.workers channel).goto .top))

theorem runWorker_moves {state next : State} {channel : EdfChannel}
    (stepped : state.runWorker channel = some next) : RunMove state channel next := by
  cases place : (state.workers channel).pc with
  | top =>
      simp only [runWorker, place, Option.some.injEq] at stepped
      cases stepped
      exact .top place
  | receiveHigh =>
      simp only [runWorker, place] at stepped
      split at stepped
      · rename_i received
        cases stepped
        exact .receiveHigh place received
      · rename_i failed
        cases stepped
        exact .noHigh place failed
  | receiveLower classes receivedTasks =>
      cases classes with
      | nil =>
          simp only [runWorker, place, Option.some.injEq] at stepped
          cases stepped
          exact .lowerDone place
      | cons priority rest =>
          simp only [runWorker, place] at stepped
          split at stepped
          · rename_i received
            cases stepped
            exact .receiveLower place received
          · rename_i failed
            cases stepped
            exact .skipLower place failed
  | pop =>
      simp only [runWorker, place] at stepped
      split at stepped
      · rename_i queue
        cases stepped
        exact .popFifo place queue
      · rename_i queue
        cases stepped
        exact .idle place (by rw [queue, Option.getD_some])
      · rename_i queue
        split at stepped
        · rename_i empty
          cases stepped
          exact .idle place (by rw [queue, Option.getD_none, empty])
        · cases stepped
  | wait task deadline =>
      simp only [runWorker, place] at stepped
      split at stepped
      · rename_i received
        cases stepped
        exact .putBack place received
      · rename_i failed
        cases stepped
        exact .proceed place failed (by simp)
      · rename_i failed
        split at stepped
        · rename_i due
          cases stepped
          exact .proceed place failed fun _ => due
        · cases stepped
  | process task =>
      simp only [runWorker, place, Option.some.injEq] at stepped
      cases stepped
      exact .process place
  | busy task processStart =>
      simp only [runWorker, place] at stepped
      split at stepped
      · rename_i unfinished
        cases stepped
        exact .spin place unfinished
      · rename_i finished
        cases stepped
        exact .done place finished
  | output task =>
      simp only [runWorker, place, Option.some.injEq] at stepped
      cases stepped
      exact .output place
  | timeout task | returned => simp [runWorker, place] at stepped

theorem runWorker_move {state next : State} {channel : EdfChannel}
    (stepped : state.runWorker channel = some next) : WorkerMove state channel next := by
  cases runWorker_moves stepped with
  | top place =>
      refine .goto place ?_
      split
      · exact EdfWorker.held_enter _
      · rfl
  | @receiveHigh task remaining place received =>
      refine .gain (Channel.tryRecv_ok received).1 ?_
      refine (EdfWorker.push_tasks _ [task] rfl).trans (List.Perm.of_eq ?_)
      simp [EdfWorker.tasks, place, WorkerPc.held]
  | lowerDone place =>
      refine .keep ?_
      simp only [EdfWorker.pushHeap, EdfWorker.goto, EdfWorker.tasks, place, WorkerPc.held,
        List.append_nil, List.append_assoc]
      exact List.Perm.append_left _ List.perm_append_comm
  | receiveLower place received =>
      refine .gain (Channel.tryRecv_ok received).1 ?_
      simp only [EdfWorker.goto, EdfWorker.tasks, place, WorkerPc.held]
      rw [← List.append_assoc]
      exact List.perm_append_singleton _ _
  | popFifo place queue =>
      have free : (state.workers channel).pc.held = [] := by rw [place]; rfl
      refine .keep ?_
      simp only [EdfWorker.tasks, EdfWorker.held_afterPop, queue, free, Option.getD_some,
        List.append_nil]
      exact List.perm_append_singleton _ _
  | @putBack task newTask deadline remaining place received =>
      refine .gain (Channel.tryRecv_ok received).1 ?_
      refine (EdfWorker.push_tasks _ [newTask, task] rfl).trans ?_
      simp only [EdfWorker.tasks, place, WorkerPc.held, List.cons_append, List.nil_append]
      exact (List.perm_append_singleton _ _).symm.cons _
  | spin place unfinished => exact .stay _ _
  | output place =>
      refine .output ?_
      simp only [EdfWorker.goto, EdfWorker.tasks, place, WorkerPc.held, List.append_nil]
      exact List.perm_append_singleton _ _
  | noHigh place | skipLower place | idle place | proceed place | process place | done place =>
      exact .goto place rfl

theorem popWorker_move {state next : State} {channel : EdfChannel} {task : EDFTask}
    (stepped : state.popWorker channel task = some next) : WorkerMove state channel next := by
  simp only [popWorker] at stepped
  split at stepped
  · rename_i enabled
    obtain ⟨place, _, earliest⟩ := enabled
    cases stepped
    have free : (state.workers channel).pc.held = [] := by rw [place]; rfl
    refine .keep ?_
    simp only [EdfWorker.tasks, EdfWorker.held_afterPop, free, List.append_nil,
      List.append_assoc]
    refine List.Perm.append_left _ ?_
    exact (List.perm_append_singleton _ _).trans earliest.perm.symm
  · cases stepped

theorem awaitWorker_move {state next : State} {channel : EdfChannel} {timeout : Duration}
    (stepped : state.awaitWorker channel timeout = some next) : WorkerMove state channel next := by
  unfold awaitWorker at stepped
  split at stepped
  · rename_i task place
    split at stepped
    · cases stepped
      exact .goto place rfl
    · cases stepped
  · cases stepped

/-! ## The re-ordering stage -/

/-- What a step of the re-ordering stage can do. -/
inductive ReorderMove (state : State) : Action → State → Prop where
  | begin (place : state.reorder.pc = .top) (running : state.running = true) :
      ReorderMove state .reorder
        { state with reorder := { state.reorder with pc := .fill EdfChannel.all } }
  | quit (place : state.reorder.pc = .top) (stopped : state.running = false) :
      ReorderMove state .reorder { state with reorder := { state.reorder with pc := .returned } }
  | skip {channel : EdfChannel} {rest : List EdfChannel}
      (place : state.reorder.pc = .fill (channel :: rest))
      (full : state.reorder.buffers channel ≠ none ∨ (state.edfOutputs channel).queue = []) :
      ReorderMove state .reorder { state with reorder := { state.reorder with pc := .fill rest } }
  | take {channel : EdfChannel} {rest : List EdfChannel} {packet : Packet}
      {remaining : Channel Packet} (place : state.reorder.pc = .fill (channel :: rest))
      (empty : state.reorder.buffers channel = none)
      (front : (state.edfOutputs channel).queue = packet :: remaining.queue) :
      ReorderMove state .reorder
        { state.setEdfOutput channel remaining with
          reorder := {
            buffers := Function.update state.reorder.buffers channel (some (.of channel packet))
            pc := .fill rest } }
  | filled (place : state.reorder.pc = .fill []) :
      ReorderMove state .reorder { state with reorder := { state.reorder with pc := .select } }
  | idle (place : state.reorder.pc = .select)
      (empty : ∀ channel, state.reorder.buffers channel = none) :
      ReorderMove state .reorder { state with reorder := { state.reorder with pc := .top } }
  | select {channel : EdfChannel} {ordered : OrderedPacket} (place : state.reorder.pc = .select)
      (held : state.reorder.buffers channel = some ordered)
      (least : ∀ other, ∀ packet ∈ state.reorder.buffers other, ordered.deadline ≤ packet.deadline) :
      ReorderMove state .reorder
        { state with
          reorder := {
            buffers := Function.update state.reorder.buffers channel none
            pc := .forward ordered } }
  | forward {ordered : OrderedPacket} {room : Bool} (place : state.reorder.pc = .forward ordered) :
      ReorderMove state (.forward room)
        { state with
          outputQueues := state.outputQueues.set ordered.priority
            ((state.outputQueues ordered.priority).trySend (fun _ => room) ordered.packet)
          reorder := { state.reorder with pc := .top } }

theorem runReorder_moves {state next : State} (stepped : state.runReorder = some next) :
    ReorderMove state .reorder next := by
  cases place : state.reorder.pc with
  | top =>
      simp only [runReorder, place, Option.some.injEq] at stepped
      cases stepped
      split
      · rename_i running
        exact .begin place running
      · rename_i stopped
        exact .quit place (Bool.eq_false_of_not_eq_true stopped)
  | fill rest =>
      cases rest with
      | nil =>
          simp only [runReorder, place, Option.some.injEq] at stepped
          cases stepped
          exact .filled place
      | cons channel rest =>
          simp only [runReorder, place] at stepped
          split at stepped
          · rename_i ordered held
            cases stepped
            exact .skip place (.inl (held ▸ Option.some_ne_none ordered))
          · rename_i empty
            split at stepped
            · rename_i packet remaining received
              cases stepped
              exact .take place empty (Channel.tryRecv_ok received).1
            · rename_i failed
              cases stepped
              exact .skip place (.inr (Channel.tryRecv_error failed))
  | select =>
      simp only [runReorder, place, Option.some.injEq] at stepped
      cases stepped
      rcases state.reorder.earliest_spec with ⟨nothing, empty⟩ | ⟨channel, ordered, found, held, least⟩
      · simp only [Reorder.select, nothing]
        exact .idle place empty
      · simp only [Reorder.select, found, held]
        exact .select place held least
  | forward ordered | returned => simp [runReorder, place] at stepped

theorem forwardReorder_moves {state next : State} {room : Bool}
    (stepped : state.forwardReorder room = some next) : ReorderMove state (.forward room) next := by
  unfold forwardReorder at stepped
  split at stepped
  · rename_i ordered place
    cases stepped
    exact .forward place
  · cases stepped

theorem ReorderMove.frame {state next : State} {action : Action} (move : ReorderMove state action next) :
    ∃ outputQueues edfOutputs reorder,
      next = { state with outputQueues, edfOutputs, reorder } := by
  cases move <;> exact ⟨_, _, _, rfl⟩

end State

end EdfPipeline.McEdf
