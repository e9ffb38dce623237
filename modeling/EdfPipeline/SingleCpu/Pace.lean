import EdfPipeline.SingleCpu.Stage
import EdfPipeline.Pipeline.Pace

/-!
# The pace of the single-CPU scheduler

SingleCPU-EDF reads and processes one packet at a time.
-/

set_option autoImplicit false

namespace EdfPipeline.SingleCpu

/-- When the processing in progress began. -/
def Call.begun : Call → Option Instant
  | .busy _ start => some start
  | .idle | .refill _ | .next _ _ _ | .receive _ _ _ _ | .select | .send _ => none

/-- The work of the packet that was processed and not yet sent. -/
def Call.done : Call → Nat
  | .send packet => processingTime packet
  | .idle | .refill _ | .next _ _ _ | .receive _ _ _ _ | .select | .busy _ _ => 0

namespace State

def done (state : State) : Nat :=
  workload processingTime (handedAll state.outputQueues) + state.call.done

def spent (state : State) : Nat := Servers.spent state.clock state.call.begun

theorem step_paid {state next : State} {action : Action} (stepped : state.step action = some next) :
    next.done + state.spent ≤ state.done + next.spent := by
  cases step_moves stepped with
  | addSocket | spin => exact Nat.le_refl _
  | tick elapsed => exact Nat.add_le_add_left (Servers.spent_tick _ _ _) _
  | done place finished =>
      have paid := Servers.spent_done (Nat.le_of_not_lt finished)
      simp only [done, spent, place, Call.done, Call.begun, Nat.add_zero, Nat.add_assoc]
      exact Nat.add_le_add_left paid _
  | forward place =>
      simp only [done, spent, forward, workload_trySend, place, Call.done, Call.begun]
      omega
  | take place =>
      simp only [done, spent, place, Call.done, Call.begun, Servers.spent_begin]
      exact Nat.le_refl _
  | processNext place | refilled place | refill place | filled place | next place | leave place
  | dry place | read place | idle place =>
      simp only [done, spent, pushBack, place, Call.done, Call.begun]
      exact Nat.le_refl _

end State

theorem le_processingTime (packet : Packet) : 100000 ≤ processingTime packet :=
  Nat.le_add_right _ _

/-- The stage with its one thread. -/
def pacedStage (registrations : List Registration) : PacedStage where
  toStage := stage registrations
  threads := 1
  cost := processingTime
  least := 100000
  done thread := thread.scheduler.done
  spent thread := thread.scheduler.spent
  least_le := le_processingTime
  initial_clock := rfl
  initial_done := by
    change workload processingTime (handedAll fun _ => .initial) + 0 = 0
    rw [handedAll_initial, workload_zero]
  paid _ moved := by
    rcases LoopWiring.moves_behind moved with ⟨own, _, stepped, _⟩ | ⟨_, rfl⟩
    · exact State.step_paid stepped
    · exact Nat.le_refl _
  handed thread := Nat.le_add_right _ _
  spent_le thread := (Servers.spent_le _ _).trans (Nat.le_of_eq (Nat.one_mul _).symm)

end EdfPipeline.SingleCpu
