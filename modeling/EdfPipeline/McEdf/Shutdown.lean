import EdfPipeline.McEdf.Stage
import EdfPipeline.Pipeline.Halting
import Mathlib.Algebra.Order.BigOperators.Group.Finset

/-!
# The end of MC-EDF

The dispatcher hands out the batch it has begun to collect. A worker and the
re-ordering stage return at the top of their loops, whatever waits behind them.
-/

set_option autoImplicit false

namespace EdfPipeline.McEdf

open EarliestFirst

/-- The steps of a worker until it returns, without those that receive. -/
def WorkerPc.rank : WorkerPc → Nat
  | .returned => 0
  | .top => 1
  | .output _ => 2
  | .busy _ _ => 3
  | .process _ => 4
  | .wait _ _ => 5
  | .timeout _ => 6
  | .pop => 7
  | .receiveLower rest _ => 8 + rest.length
  | .receiveHigh => 12

def ReorderPc.rank : ReorderPc → Nat
  | .returned => 0
  | .top => 1
  | .forward _ => 2
  | .select => 3
  | .fill rest => 4 + rest.length

/-- The steps after the packet of a class, with those the tasks cost their worker. -/
def afterRank : Priority → Nat
  | .high => 10
  | .medium => 7
  | .low => 4
  | .bestEffort => 1

def DispatcherPc.rank : DispatcherPc → Nat
  | .returned => 0
  | .top => 1
  | .receive priority => afterRank priority + 3
  | .deliver task => afterRank task.priority + 2
  | .send channels => 11 + 3 * channels.length
  | .recordDistribution _ _ rest => 12 + 3 * rest.length
  | .assign highBatch => 12 + 3 * highBatch.length
  | .collect _ highBatch => 13 + 3 * highBatch.length + 4 * (batchLimit - highBatch.length)

theorem DispatcherPc.rank_after (priority : Priority) :
    (DispatcherPc.after priority).rank = afterRank priority := by
  cases priority <;> rfl

/-- The tasks that wait at an EDF. -/
def backlog (inputs : PriorityTable (Channel EDFTask)) : Nat :=
  ∑ priority, (inputs priority).queue.length

theorem backlog_set (inputs : PriorityTable (Channel EDFTask)) (priority : Priority)
    (input : Channel EDFTask) :
    backlog (inputs.set priority input) + (inputs priority).queue.length =
      backlog inputs + input.queue.length :=
  Ledger.sum_update (fun input : Channel EDFTask => input.queue.length) inputs priority input

namespace State

def rank (state : State) : Nat :=
  state.dispatcher.rank + ∑ channel, backlog (state.edfInputs channel) +
    ∑ channel, (state.workers channel).pc.rank + state.reorder.pc.rank

/-- The simulated processing is not over. -/
def waits (state : State) : Action → Bool
  | .run channel =>
      match (state.workers channel).pc with
      | .busy task processStart => state.clock - processStart < processingDuration task.packet
      | _ => false
  | _ => false

structure Ended (state : State) : Prop where
  dispatcher : state.dispatcher = .returned
  workers : ∀ channel, (state.workers channel).pc = .returned
  reorder : state.reorder.pc = .returned

def goes : Action → Bool
  | .stop => false
  | _ => true

theorem own_goes (action : Action) (own : wiring.own action = true) : goes action = true := by
  cases action with
  | stop => cases own
  | arrive | disconnect | tick | dispatch | run | pop | await | reorder | forward => rfl

variable {state next : State}

/-! ## What a step takes off -/

theorem setWorker_rank {channel : EdfChannel} {worker : EdfWorker} {old : WorkerPc} {saved : Nat}
    (place : (state.workers channel).pc = old) (less : worker.pc.rank + saved ≤ old.rank) :
    (state.setWorker channel worker).rank + saved ≤ state.rank := by
  have moved := Ledger.sum_update (fun worker : EdfWorker => worker.pc.rank) state.workers channel worker
  rw [place] at moved
  simp only [rank, setWorker]
  omega

theorem receive_rank {channel : EdfChannel} {priority : Priority} {task : EDFTask}
    {remaining : Channel EDFTask} {worker : EdfWorker} {old : WorkerPc} {saved : Nat}
    (received : (state.edfInputs channel priority).tryRecv = .ok (task, remaining))
    (place : (state.workers channel).pc = old) (less : worker.pc.rank ≤ old.rank) (once : saved ≤ 1) :
    ((state.setEdfInput channel priority remaining).setWorker channel worker).rank + saved ≤
      state.rank := by
  have moved := Ledger.sum_update (fun worker : EdfWorker => worker.pc.rank) state.workers channel worker
  have inputs := Ledger.sum_update backlog state.edfInputs channel
    ((state.edfInputs channel).set priority remaining)
  have shorter := backlog_set (state.edfInputs channel) priority remaining
  rw [(Channel.tryRecv_ok received).1, List.length_cons] at shorter
  rw [place] at moved
  simp only [rank, setWorker, setEdfInput]
  omega

theorem sendTask_rank {channel : EdfChannel} {priority : Priority} {task : EDFTask}
    {dispatcher : DispatcherPc} (less : dispatcher.rank + 2 ≤ state.dispatcher.rank) :
    ({ state.sendTask channel priority task with dispatcher } : State).rank + 1 ≤ state.rank := by
  have inputs := Ledger.sum_update backlog state.edfInputs channel
    ((state.edfInputs channel).set priority ((state.edfInputs channel priority).send task))
  have longer := backlog_set (state.edfInputs channel) priority
    ((state.edfInputs channel priority).send task)
  simp only [Channel.send, List.length_append, List.length_singleton] at inputs longer
  simp only [rank, sendTask, setEdfInput, Channel.send]
  omega

theorem DispatchMove.rank_le (stopped : state.running = false) (move : DispatchMove state next) :
    next.rank + 1 ≤ state.rank := by
  have quiet {dispatcher : DispatcherPc} (less : dispatcher.rank + 1 ≤ state.dispatcher.rank) :
      ({ state with dispatcher } : State).rank + 1 ≤ state.rank := by
    simp only [rank]
    omega
  cases move with
  | top place =>
      refine quiet ?_
      rw [stopped, place]
      exact Nat.le_refl _
  | collect place room front =>
      refine quiet ?_
      rw [place]
      simp only [DispatcherPc.rank, List.length_append, List.length_singleton]
      omega
  | collected place ends =>
      refine quiet ?_
      rw [place]
      split
      · rw [DispatcherPc.rank_after]
        simp only [DispatcherPc.rank, afterRank]
        omega
      · simp only [DispatcherPc.rank]
        omega
  | assign place =>
      refine quiet ?_
      rw [place]
      simp only [DispatcherPc.rank, List.length_map]
      omega
  | send place =>
      refine sendTask_rank ?_
      rw [place]
      simp only [DispatcherPc.rank, List.length_cons]
      omega
  | sent place =>
      refine quiet ?_
      rw [place, DispatcherPc.rank_after]
      exact Nat.le_refl _
  | record place =>
      refine quiet ?_
      rw [place]
      simp only [DispatcherPc.rank]
      omega
  | receive place front =>
      refine quiet ?_
      rw [place]
      exact Nat.le_refl _
  | skip place empty =>
      refine quiet ?_
      rw [place, DispatcherPc.rank_after]
      simp only [DispatcherPc.rank]
      omega
  | deliver place =>
      refine sendTask_rank ?_
      rw [place, DispatcherPc.rank_after]
      exact Nat.le_refl _

theorem afterPop_rank (task : EDFTask) : (EdfWorker.afterPop task).rank ≤ 6 := by
  unfold EdfWorker.afterPop
  split
  · exact Nat.le_add_right 4 2
  · exact Nat.le_refl 6

theorem RunMove.rank_le {channel : EdfChannel} (stopped : state.running = false)
    (move : RunMove state channel next) :
    next.rank + (!state.waits (.run channel)).toNat ≤ state.rank := by
  have once : (!state.waits (.run channel)).toNat ≤ 1 := Bool.toNat_le _
  cases move with
  | spin place unfinished => simp [waits, place, unfinished]
  | top place =>
      rw [stopped]
      exact setWorker_rank place (Nat.add_le_add_left once 0)
  | receiveHigh place received => exact receive_rank received place (Nat.le_add_right 7 5) once
  | receiveLower place received => exact receive_rank received place (Nat.le_refl _) once
  | putBack place received => exact receive_rank received place (Nat.le_add_right 1 4) once
  | noHigh place => exact setWorker_rank place (Nat.add_le_add_left once 11)
  | lowerDone place => exact setWorker_rank place (Nat.add_le_add_left once 7)
  | skipLower place => exact setWorker_rank place (Nat.add_le_add_left once _)
  | popFifo place => exact setWorker_rank place (Nat.add_le_add (afterPop_rank _) once)
  | idle place =>
      exact setWorker_rank place (Nat.le_trans (Nat.add_le_add_left once 1) (Nat.le_add_right 2 5))
  | proceed place | process place => exact setWorker_rank place (Nat.add_le_add_left once _)
  | done place => exact setWorker_rank place (Nat.add_le_add_left once 2)
  | output place => exact setWorker_rank place (Nat.add_le_add_left once 1)

theorem ReorderMove.rank_le {action : Action} (stopped : state.running = false)
    (move : ReorderMove state action next) : next.rank + 1 ≤ state.rank := by
  have quiet {outputQueues : PriorityTable OutputQueue} {edfOutputs : EdfChannel → Channel Packet}
      {reorder : Reorder} (less : reorder.pc.rank + 1 ≤ state.reorder.pc.rank) :
      ({ state with outputQueues, edfOutputs, reorder } : State).rank + 1 ≤ state.rank := by
    simp only [rank]
    omega
  cases move with
  | begin place running =>
      rw [stopped] at running
      cases running
  | quit place | skip place | take place | filled place | select place | forward place =>
      refine quiet ?_
      rw [place]
      exact Nat.le_refl _
  | idle place =>
      refine quiet ?_
      rw [place]
      exact Nat.le_add_right 2 1

theorem popWorker_rank {channel : EdfChannel} {task : EDFTask}
    (stepped : state.popWorker channel task = some next) : next.rank + 1 ≤ state.rank := by
  simp only [popWorker] at stepped
  split at stepped
  · rename_i enabled
    cases stepped
    exact setWorker_rank enabled.1 (Nat.add_le_add_right (afterPop_rank task) 1)
  · cases stepped

theorem awaitWorker_rank {channel : EdfChannel} {timeout : Duration}
    (stepped : state.awaitWorker channel timeout = some next) : next.rank + 1 ≤ state.rank := by
  unfold awaitWorker at stepped
  split at stepped
  · rename_i task place
    split at stepped
    · cases stepped
      exact setWorker_rank place (Nat.le_refl 6)
    · cases stepped
  · cases stepped

theorem step_rank {action : Action} (stopped : state.running = false) (own : wiring.own action = true)
    (stepped : state.step action = some next) :
    next.rank + (!state.waits action).toNat ≤ state.rank := by
  cases action with
  | arrive | disconnect | tick | stop => cases own
  | dispatch => exact (dispatch_moves stepped).rank_le stopped
  | run channel => exact (runWorker_moves stepped).rank_le stopped
  | pop channel task => exact popWorker_rank stepped
  | await channel timeout => exact awaitWorker_rank stepped
  | reorder => exact (runReorder_moves stepped).rank_le stopped
  | forward room => exact (forwardReorder_moves stepped).rank_le stopped

theorem step_running {action : Action} (stepped : state.step action = some next) :
    next.running = (state.running && goes action) := by
  have same {after : State} (kept : after.running = state.running) :
      after.running = (state.running && true) := kept.trans (Bool.and_true _).symm
  cases action with
  | arrive packet =>
      simp only [step] at stepped
      split at stepped
      · cases stepped
      · cases stepped
        exact same rfl
  | disconnect | tick =>
      cases stepped
      exact same rfl
  | stop =>
      cases stepped
      exact (Bool.and_false _).symm
  | dispatch =>
      obtain ⟨_, _, _, _, rfl⟩ := (dispatch_moves stepped).frame
      exact same rfl
  | run channel => exact same (by cases runWorker_moves stepped <;> rfl)
  | pop channel task => exact same (by cases popWorker_move stepped <;> rfl)
  | await channel timeout => exact same (by cases awaitWorker_move stepped <;> rfl)
  | reorder =>
      obtain ⟨_, _, _, rfl⟩ := (runReorder_moves stepped).frame
      exact same rfl
  | forward room =>
      obtain ⟨_, _, _, rfl⟩ := (forwardReorder_moves stepped).frame
      exact same rfl

theorem told_rank {signal : Signal} (received : wiring.receive State.step state signal = some next) :
    next.rank ≤ state.rank := by
  obtain ⟨action, stepped, told⟩ := Wiring.receive_step received
  cases signal with
  | arrive priority packet =>
      rw [told.2] at stepped
      simp only [wiring, step] at stepped
      split at stepped
      · cases stepped
      · cases stepped
        exact Nat.le_refl _
  | tick | stop =>
      rw [told] at stepped
      cases stepped
      exact Nat.le_refl _

/-! ## Threads that go on -/

theorem dispatcher_progress (active : state.dispatcher ≠ .returned) :
    ∃ next, state.step .dispatch = some next := by
  cases place : state.dispatcher with
  | collect now highBatch =>
      simp only [step, dispatch, place]
      split
      · split <;> exact ⟨_, rfl⟩
      · exact ⟨_, rfl⟩
  | send channels =>
      cases channels with
      | nil => simp [step, dispatch, place]
      | cons entry rest => simp [step, dispatch, place]
  | receive priority =>
      simp only [step, dispatch, place]
      split <;> exact ⟨_, rfl⟩
  | top | assign | recordDistribution | deliver => simp [step, dispatch, place]
  | returned => exact absurd place active

theorem reorder_progress (active : state.reorder.pc ≠ .returned) :
    ∃ action, wiring.own action = true ∧ state.waits action = false ∧
      ∃ next, state.step action = some next := by
  cases place : state.reorder.pc with
  | fill rest =>
      refine ⟨.reorder, rfl, rfl, ?_⟩
      cases rest with
      | nil => simp [step, runReorder, place]
      | cons channel rest =>
          simp only [step, runReorder, place]
          split
          · exact ⟨_, rfl⟩
          · split <;> exact ⟨_, rfl⟩
  | top | select =>
      refine ⟨.reorder, rfl, rfl, ?_⟩
      simp [step, runReorder, place]
  | forward ordered =>
      refine ⟨.forward true, rfl, rfl, ?_⟩
      simp [step, forwardReorder, place]
  | returned => exact absurd place active

theorem pop_progress {channel : EdfChannel} (place : (state.workers channel).pc = .pop) :
    ∃ action, wiring.own action = true ∧ state.waits action = false ∧
      ∃ next, state.step action = some next := by
  have patient : state.waits (.run channel) = false := by simp [waits, place]
  cases queue : (state.workers channel).highQueue with
  | some fifo =>
      refine ⟨.run channel, rfl, patient, ?_⟩
      cases fifo with
      | nil => simp [step, runWorker, place, queue]
      | cons task fifo => simp [step, runWorker, place, queue]
  | none =>
      by_cases empty : (state.workers channel).heap = []
      · refine ⟨.run channel, rfl, patient, ?_⟩
        simp [step, runWorker, place, queue, empty]
      · obtain ⟨task, earliest⟩ := exists_earliest EDFTask.virtualDeadline empty
        exact ⟨.pop channel task, rfl, rfl, _, if_pos ⟨place, queue, earliest⟩⟩

/-- A worker goes on, if time passes. -/
theorem worker_progress {channel : EdfChannel} (active : (state.workers channel).pc ≠ .returned) :
    ∃ elapsed action, wiring.own action = true ∧
      ({ state with clock := state.clock + elapsed } : State).waits action = false ∧
      ∃ next, ({ state with clock := state.clock + elapsed } : State).step action = some next := by
  cases place : (state.workers channel).pc with
  | top | process | output =>
      refine ⟨0, .run channel, rfl, by simp [waits, place], ?_⟩
      simp [step, runWorker, place]
  | receiveHigh =>
      refine ⟨0, .run channel, rfl, by simp [waits, place], ?_⟩
      simp only [step, runWorker, place]
      split <;> exact ⟨_, rfl⟩
  | receiveLower classes receivedTasks =>
      refine ⟨0, .run channel, rfl, by simp [waits, place], ?_⟩
      cases classes with
      | nil => simp [step, runWorker, place]
      | cons priority rest =>
          simp only [step, runWorker, place]
          split <;> exact ⟨_, rfl⟩
  | pop => exact ⟨0, @pop_progress { state with clock := state.clock + 0 } channel place⟩
  | timeout task =>
      refine ⟨0, .await channel 0, rfl, rfl, ?_⟩
      simp [step, awaitWorker, place]
  | wait task deadline =>
      refine ⟨deadline, .run channel, rfl, by simp [waits, place], ?_⟩
      simp only [step, runWorker, place]
      split
      · exact ⟨_, rfl⟩
      · exact ⟨_, rfl⟩
      · exact ⟨_, if_pos (Nat.le_add_left _ _)⟩
  | busy task processStart =>
      have finished := over_in_time state.clock processStart (processingDuration task.packet)
      refine ⟨processStart + processingDuration task.packet, .run channel, rfl,
        by simp [waits, place, finished], ?_⟩
      simp [step, runWorker, place, finished]
  | returned => exact absurd place active

theorem progress (active : ¬ state.Ended) :
    ∃ elapsed action, wiring.own action = true ∧
      ({ state with clock := state.clock + elapsed } : State).waits action = false ∧
      ∃ next, ({ state with clock := state.clock + elapsed } : State).step action = some next := by
  by_cases dispatched : state.dispatcher = .returned
  · by_cases reordered : state.reorder.pc = .returned
    · have going : ¬ ∀ channel, (state.workers channel).pc = .returned :=
        fun all => active ⟨dispatched, all, reordered⟩
      obtain ⟨channel, going⟩ := not_forall.mp going
      exact worker_progress going
    · exact ⟨0, @reorder_progress { state with clock := state.clock + 0 } reordered⟩
  · exact ⟨0, .dispatch, rfl, rfl, @dispatcher_progress { state with clock := state.clock + 0 } dispatched⟩

end State

def haltingStage : HaltingStage where
  toStage := fed.toStage
  rank := State.rank
  ended := State.Ended
  waits := State.waits
  initial_running := rfl
  flag := Wiring.moves_flag State.step_running rfl (fun _ => rfl) (fun _ => rfl) State.own_goes
  told_rank := State.told_rank
  work_rank stopped worked := by
    obtain ⟨own, stepped⟩ := Wiring.work_step worked
    exact State.step_rank stopped own stepped
  progress {state} _ _ active := by
    obtain ⟨elapsed, action, own, goes⟩ := @State.progress state active
    refine @Wiring.progress _ _ wiring State.step state action elapsed State.waits own ?_
    rintro middle ⟨⟩
    exact goes

end EdfPipeline.McEdf
