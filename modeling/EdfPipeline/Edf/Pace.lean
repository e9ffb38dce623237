import EdfPipeline.Edf.Stage
import EdfPipeline.Pipeline.Pace

/-!
# The pace of the single EDF scheduler

EDF-Processor processes one packet at a time.
-/

set_option autoImplicit false

namespace EdfPipeline.Edf

/-- When the processing in progress began. -/
def Call.begun : Call → Option Instant
  | .busy _ start => some start
  | .idle | .fill _ | .send _ => none

/-- The work of the packet that was processed and not yet sent. -/
def Call.done : Call → Nat
  | .send packet => processingTime packet
  | .idle | .fill _ | .busy _ _ => 0

namespace State

def done (state : State) : Nat :=
  workload processingTime (handedAll state.outputQueues) + state.call.done

def spent (state : State) : Nat := Servers.spent state.clock state.call.begun

variable {state next : State}

/-- Where nothing is sent, it is the call that pays. -/
theorem paid_quiet (clock : next.clock = state.clock) (outputs : next.outputQueues = state.outputQueues)
    (paid : next.call.done + Servers.spent state.clock state.call.begun ≤
      state.call.done + Servers.spent state.clock next.call.begun) :
    next.done + state.spent ≤ state.done + next.spent := by
  simp only [done, spent, clock, outputs]
  omega

theorem select_paid (place : state.call = .fill []) :
    state.select.done + state.spent ≤ state.done + state.select.spent := by
  have free (pending : PriorityTable (Option EDFTask)) (call : Call) (nothing : call.done = 0)
      (now : Servers.spent state.clock call.begun = state.clock) :
      ({ state with pending, call } : State).done + state.spent ≤
        state.done + ({ state with pending, call } : State).spent := by
    refine paid_quiet rfl rfl ?_
    rw [place, nothing, now]
    exact Nat.le_refl _
  unfold select
  split
  · exact free _ _ rfl rfl
  · split
    · exact free _ _ rfl rfl
    · exact free _ _ rfl (Servers.spent_begin _)

theorem run_paid (stepped : state.step .run = some next) :
    next.done + state.spent ≤ state.done + next.spent := by
  simp only [step] at stepped
  split at stepped
  · rename_i priority rest place
    cases stepped
    have same : (state.fill priority rest).clock = state.clock ∧
        (state.fill priority rest).outputQueues = state.outputQueues ∧
          (state.fill priority rest).call = .fill rest := by
      simp only [fill]
      split
      · exact ⟨rfl, rfl, rfl⟩
      · split <;> exact ⟨rfl, rfl, rfl⟩
    refine paid_quiet same.1 same.2.1 ?_
    rw [same.2.2, place]
    exact Nat.le_refl _
  · rename_i place
    cases stepped
    exact select_paid place
  · rename_i packet start place
    split at stepped
    · cases stepped
      exact Nat.le_refl _
    · rename_i finished
      cases stepped
      refine paid_quiet rfl rfl ?_
      rw [place]
      exact (Servers.spent_done (Nat.le_of_not_lt finished)).trans (Nat.le_add_left _ _)
  · cases stepped

theorem step_paid {action : Action} (stepped : state.step action = some next) :
    next.done + state.spent ≤ state.done + next.spent := by
  cases action with
  | enqueue priority packet =>
      simp only [step] at stepped
      split at stepped
      · cases stepped
        exact Nat.le_refl _
      · cases stepped
  | tick elapsed =>
      cases stepped
      exact Nat.add_le_add_left (Servers.spent_tick _ _ _) _
  | processNext =>
      simp only [step] at stepped
      split at stepped
      · rename_i place
        cases stepped
        refine paid_quiet rfl rfl ?_
        rw [place]
        exact Nat.le_refl _
      · cases stepped
  | run => exact run_paid stepped
  | send room =>
      simp only [step] at stepped
      split at stepped
      · rename_i packet place
        cases stepped
        simp only [done, spent, forward, workload_trySend, place, Call.done, Call.begun]
        omega
      · cases stepped

end State

theorem le_processingTime (packet : Packet) : 100000 ≤ processingTime packet :=
  Nat.le_add_right _ _

/-- The stage with its one thread. -/
def pacedStage : PacedStage where
  toStage := stage
  threads := 1
  cost := processingTime
  least := 100000
  done thread := thread.scheduler.done
  spent thread := thread.scheduler.spent
  least_le := le_processingTime
  initial_clock := rfl
  initial_done := by
    change workload processingTime (handedAll fun _ => .initial) + 0 = 0
    rw [handedAll_initial, workload_zero]
  paid _ moved := by
    rcases LoopWiring.moves_behind moved with ⟨own, _, stepped, _⟩ | ⟨_, rfl⟩
    · exact State.step_paid stepped
    · exact Nat.le_refl _
  handed thread := Nat.le_add_right _ _
  spent_le thread := (Servers.spent_le _ _).trans (Nat.le_of_eq (Nat.one_mul _).symm)

end EdfPipeline.Edf
