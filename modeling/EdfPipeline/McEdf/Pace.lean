import EdfPipeline.McEdf.Stage
import EdfPipeline.Pipeline.Pace

/-!
# The pace of MC-EDF

Each worker processes one task at a time, and what it has processed waits for the
re-ordering stage.
-/

set_option autoImplicit false

namespace EdfPipeline.McEdf

namespace WorkerPc

/-- When the processing in progress began. -/
def begun : WorkerPc → Option Instant
  | .busy _ processStart => some processStart
  | .top | .receiveHigh | .receiveLower _ _ | .pop | .timeout _ | .wait _ _ | .process _ | .output _
  | .returned => none

/-- The work of the task that was processed and not yet passed on. -/
def done : WorkerPc → Nat
  | .output task => processingDuration task.packet
  | .top | .receiveHigh | .receiveLower _ _ | .pop | .timeout _ | .wait _ _ | .process _ | .busy _ _
  | .returned => 0

end WorkerPc

namespace State

/-- The packets the workers have passed on. -/
def processed (state : State) : Multiset Packet :=
  outputPackets state.edfOutputs + state.reorder.packets + handedAll state.outputQueues

def done (state : State) : Nat :=
  workload processingDuration state.processed + ∑ channel, (state.workers channel).pc.done

def spent (state : State) : Nat :=
  Servers.total (fun worker : EdfWorker => worker.pc.begun) state.clock state.workers

variable {state next : State}

theorem setWorker_paid {channel : EdfChannel} {worker : EdfWorker} {old : WorkerPc}
    (place : (state.workers channel).pc = old)
    (paid : worker.pc.done + Servers.spent state.clock old.begun ≤
      old.done + Servers.spent state.clock worker.pc.begun) :
    (state.setWorker channel worker).done + state.spent ≤
      state.done + (state.setWorker channel worker).spent := by
  subst place
  have update := @Servers.update_paid _ _ _ (fun worker : EdfWorker => worker.pc.begun) _
    (fun worker => worker.pc.done) state.clock state.workers channel worker 0 paid
  simp only [done, spent, processed, setWorker]
  omega

/-- A worker that is free before and after. -/
theorem setWorker_free {channel : EdfChannel} {worker : EdfWorker} {old : WorkerPc}
    (place : (state.workers channel).pc = old) (before : old.begun = none ∧ old.done = 0)
    (after : worker.pc.begun = none ∧ worker.pc.done = 0) :
    (state.setWorker channel worker).done + state.spent ≤
      state.done + (state.setWorker channel worker).spent := by
  refine setWorker_paid place ?_
  rw [before.1, before.2, after.1, after.2]

theorem output_paid {channel : EdfChannel} {task : EDFTask}
    (place : (state.workers channel).pc = .output task) :
    ((state.setEdfOutput channel ((state.edfOutputs channel).send task.packet)).setWorker channel
        ((state.workers channel).goto .top)).done + state.spent ≤
      state.done + ((state.setEdfOutput channel ((state.edfOutputs channel).send task.packet)).setWorker
        channel ((state.workers channel).goto .top)).spent := by
  have update := @Servers.update_paid _ _ _ (fun worker : EdfWorker => worker.pc.begun) _
    (fun worker => worker.pc.done) state.clock state.workers channel
    ((state.workers channel).goto .top) (processingDuration task.packet) (by
      rw [place]
      simp only [EdfWorker.goto, WorkerPc.done, WorkerPc.begun, Nat.zero_add, Nat.le_refl])
  have longer : outputPackets (Function.update state.edfOutputs channel
      ((state.edfOutputs channel).send task.packet)) = {task.packet} + outputPackets state.edfOutputs := by
    refine @Ledger.sum_update_add _ _ _ _ _ _ (fun output : Channel Packet => (↑output.queue : Multiset Packet))
      _ _ _ _ ?_
    simp only [Channel.send, ← Multiset.coe_add, Multiset.coe_singleton]
    exact add_comm _ _
  simp only [done, spent, processed, setWorker, setEdfOutput, longer, workload_add, workload_singleton]
  omega

theorem afterPop_free (task : EDFTask) :
    (EdfWorker.afterPop task).begun = none ∧ (EdfWorker.afterPop task).done = 0 := by
  unfold EdfWorker.afterPop
  split <;> exact ⟨rfl, rfl⟩

theorem enter_free (worker : EdfWorker) : worker.enter.begun = none ∧ worker.enter.done = 0 := by
  unfold EdfWorker.enter
  split <;> exact ⟨rfl, rfl⟩

theorem RunMove.paid {channel : EdfChannel} (move : RunMove state channel next) :
    next.done + state.spent ≤ state.done + next.spent := by
  cases move with
  | spin => exact Nat.le_refl _
  | top place =>
      refine setWorker_free place ⟨rfl, rfl⟩ ?_
      simp only [EdfWorker.goto]
      split
      · exact enter_free _
      · exact ⟨rfl, rfl⟩
  | popFifo place => exact setWorker_free place ⟨rfl, rfl⟩ (afterPop_free _)
  | receiveHigh place | noHigh place | lowerDone place | receiveLower place | skipLower place
  | idle place | putBack place | proceed place => exact setWorker_free place ⟨rfl, rfl⟩ ⟨rfl, rfl⟩
  | process place =>
      refine setWorker_paid place ?_
      simp only [EdfWorker.goto, WorkerPc.begun, Servers.spent_begin]
      exact Nat.le_refl _
  | done place finished =>
      refine setWorker_paid place ?_
      exact (Servers.spent_done (Nat.le_of_not_lt finished)).trans (Nat.le_add_left _ _)
  | output place => exact output_paid place

/-- The re-ordering stage passes on what the workers have processed. -/
theorem ReorderMove.paid {action : Action} (move : ReorderMove state action next) :
    next.done + state.spent ≤ state.done + next.spent := by
  have contents := move.contents
  obtain ⟨outputQueues, edfOutputs, reorder, rfl⟩ := move.frame
  simp only [State.contents, add_assoc] at contents
  have same : processed { state with outputQueues, edfOutputs, reorder } = state.processed := by
    simp only [processed, add_assoc]
    exact add_left_cancel (add_left_cancel (add_left_cancel contents))
  simp only [done, spent, same]
  exact Nat.le_refl _

theorem step_paid {action : Action} (stepped : state.step action = some next) :
    next.done + state.spent ≤ state.done + next.spent := by
  cases action with
  | arrive packet =>
      simp only [step] at stepped
      split at stepped
      · cases stepped
      · cases stepped
        exact Nat.le_refl _
  | disconnect | stop =>
      cases stepped
      exact Nat.le_refl _
  | tick elapsed =>
      cases stepped
      exact Nat.add_le_add_left (Servers.total_tick _ _ _) _
  | dispatch =>
      obtain ⟨_, _, _, _, rfl⟩ := (dispatch_moves stepped).frame
      exact Nat.le_refl _
  | run channel => exact (runWorker_moves stepped).paid
  | pop channel task =>
      simp only [step, popWorker] at stepped
      split at stepped
      · rename_i enabled
        cases stepped
        exact setWorker_free enabled.1 ⟨rfl, rfl⟩ (afterPop_free task)
      · cases stepped
  | await channel timeout =>
      simp only [step, awaitWorker] at stepped
      split at stepped
      · rename_i task place
        split at stepped
        · cases stepped
          exact setWorker_free place ⟨rfl, rfl⟩ ⟨rfl, rfl⟩
        · cases stepped
      · cases stepped
  | reorder => exact (runReorder_moves stepped).paid
  | forward room => exact (forwardReorder_moves stepped).paid

end State

/-- The stage with the workers of its three EDFs. -/
def pacedStage : PacedStage where
  toStage := fed.toStage
  threads := 3
  cost := processingDuration
  least := 50000
  done := State.done
  spent := State.spent
  least_le := le_processingDuration
  initial_clock := rfl
  initial_done := by decide
  paid _ moved := by
    obtain ⟨_, stepped⟩ := Wiring.moves_step moved
    exact State.step_paid stepped
  handed state := by
    refine (workload_le _ ?_).trans (Nat.le_add_right _ _)
    exact Multiset.le_add_left _ _
  spent_le state := Servers.total_le _ _

end EdfPipeline.McEdf
