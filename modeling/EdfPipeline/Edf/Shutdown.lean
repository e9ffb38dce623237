import EdfPipeline.Edf.Stage
import EdfPipeline.Pipeline.Halting

/-!
# The end of the single EDF scheduler

A call of `process_next` that has begun is finished, and no other one begins.
-/

set_option autoImplicit false

namespace EdfPipeline.Edf

/-- The steps a call still takes, without those that wait. -/
def Call.rank : Call → Nat
  | .idle => 0
  | .send _ => 1
  | .busy _ _ => 2
  | .fill rest => rest.length + 3

namespace State

/-- The simulated processing is not over. -/
def waits (state : State) : Action → Bool
  | .run =>
      match state.call with
      | .busy packet start => state.clock - start < processingTime packet
      | _ => false
  | _ => false

theorem fill_call (state : State) (priority : Priority) (rest : List Priority) :
    (state.fill priority rest).call = .fill rest := by
  simp only [fill]
  split
  · rfl
  · split <;> rfl

theorem select_rank (state : State) : state.select.call.rank ≤ 2 := by
  unfold select
  split
  · exact Nat.zero_le _
  · split
    · exact Nat.zero_le _
    · exact Nat.le_refl _

variable {state next : State}

theorem run_rank (stepped : state.step .run = some next) :
    next.call.rank + (!state.waits .run).toNat ≤ state.call.rank := by
  have once : (!state.waits .run).toNat ≤ 1 := Bool.toNat_le _
  simp only [step] at stepped
  split at stepped
  · rename_i priority rest place
    cases stepped
    rw [fill_call, place]
    exact Nat.add_le_add_left once _
  · rename_i place
    cases stepped
    rw [place]
    change _ ≤ 2 + 1
    exact Nat.add_le_add (select_rank state) once
  · rename_i packet start place
    split at stepped
    · rename_i early
      cases stepped
      simp [waits, place, early]
    · cases stepped
      rw [place]
      exact Nat.add_le_add_left once 1
  · cases stepped

theorem send_rank {room : Bool} (stepped : state.step (.send room) = some next) :
    next.call.rank + 1 ≤ state.call.rank := by
  simp only [step] at stepped
  split at stepped
  · rename_i packet place
    cases stepped
    rw [place]
    exact Nat.le_refl _
  · cases stepped

/-- A call that has begun goes on, if time passes. -/
theorem call_progress (state : State) (busy : state.call ≠ .idle) :
    ∃ elapsed action, wiring.own action = true ∧
      wiring.begins { state with clock := state.clock + elapsed } action = false ∧
      ({ state with clock := state.clock + elapsed } : State).waits action = false ∧
      ∃ next, ({ state with clock := state.clock + elapsed } : State).step action = some next := by
  cases place : state.call with
  | idle => exact absurd place busy
  | fill rest =>
      refine ⟨0, .run, rfl, rfl, by simp [waits], ?_⟩
      cases rest with
      | nil => exact ⟨_, rfl⟩
      | cons priority rest => exact ⟨_, rfl⟩
  | busy packet start =>
      have finished := over_in_time state.clock start (processingTime packet)
      refine ⟨start + processingTime packet, .run, rfl, rfl, ?_, _, if_neg finished⟩
      simp [waits, finished]
  | send packet => exact ⟨0, .send true, rfl, rfl, rfl, _, rfl⟩

end State

theorem told_rank {thread next : Thread} {signal : Signal}
    (moved : wiring.moves State.step thread (.inl signal) = some next) :
    next.scheduler.call.rank ≤ thread.scheduler.call.rank := by
  refine @LoopWiring.told_rank _ _ wiring State.step _ _ (fun state => state.call.rank) _ ?_ ?_ moved
  · intro state priority packet action after found stepped
    cases found
    simp only [State.step] at stepped
    split at stepped
    · cases stepped
      exact Nat.le_refl _
    · cases stepped
  · intro state elapsed after stepped
    cases stepped
    exact Nat.le_refl _

theorem work_rank {thread next : Thread} {action : Action} (stopped : thread.running = false)
    (moved : wiring.moves State.step thread (.inr action) = some next) :
    next.scheduler.call.rank + (!thread.scheduler.waits action).toNat ≤ thread.scheduler.call.rank := by
  obtain ⟨own, goes, stepped⟩ := LoopWiring.stopped_work stopped moved
  cases action with
  | enqueue | tick => cases own
  | processNext => cases goes
  | run => exact State.run_rank stepped
  | send room => exact State.send_rank stepped

/-- The thread has ended when no call is running. -/
def haltingStage : HaltingStage where
  toStage := stage
  rank thread := thread.scheduler.call.rank
  ended thread := thread.scheduler.call = .idle
  waits thread action := thread.scheduler.waits action
  initial_running := rfl
  flag := LoopWiring.moves_flag
  told_rank := told_rank
  work_rank := work_rank
  progress _ _ busy := by
    obtain ⟨elapsed, action, own, goes⟩ := State.call_progress _ busy
    refine @LoopWiring.progress _ _ wiring State.step _ action elapsed State.waits own ?_
    intro state stepped
    cases stepped
    exact goes

end EdfPipeline.Edf
