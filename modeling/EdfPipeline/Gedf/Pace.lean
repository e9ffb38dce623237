import EdfPipeline.Gedf.Stage
import EdfPipeline.Pipeline.Pace

/-!
# The pace of the shared run queue

Each worker processes one task at a time.
-/

set_option autoImplicit false

namespace EdfPipeline.Gedf

variable {κ : Type} {n : Nat}

namespace WorkerPc

/-- When the processing in progress began. -/
def begun : WorkerPc κ → Option Instant
  | .busy _ start => some start
  | .lock | .check | .load | .wait | .waiting | .process _ | .forward _ | .returned => none

/-- The work of the task that was processed and not yet forwarded. -/
def done : WorkerPc κ → Nat
  | .forward task => processingDuration task.packet
  | .lock | .check | .load | .wait | .waiting | .process _ | .busy _ _ | .returned => 0

end WorkerPc

namespace State

def done (state : State κ n) : Nat :=
  workload processingDuration (handedAll state.outputQueues) + ∑ id, (state.workers id).done

def spent (state : State κ n) : Nat := Servers.total WorkerPc.begun state.clock state.workers

variable {state next : State κ n}

theorem goto_paid {id : Fin n} {pc old : WorkerPc κ} (place : state.workers id = old)
    (paid : pc.done + Servers.spent state.clock old.begun ≤
      old.done + Servers.spent state.clock pc.begun) :
    (state.goto id pc).done + state.spent ≤ state.done + (state.goto id pc).spent := by
  subst place
  have update := @Servers.update_paid _ _ _ WorkerPc.begun _ WorkerPc.done state.clock state.workers id
    pc 0 paid
  simp only [done, spent, goto]
  omega

theorem WorkerMove.paid {id : Fin n} (move : WorkerMove state id next) :
    next.done + state.spent ≤ state.done + next.spent := by
  cases move with
  | spin => exact Nat.le_refl _
  | load place =>
      refine goto_paid place ?_
      split <;> exact Nat.le_refl _
  | process place =>
      refine goto_paid place ?_
      simp only [WorkerPc.begun, Servers.spent_begin]
      exact Nat.le_refl _
  | done place finished =>
      refine goto_paid place ?_
      exact (Servers.spent_done (Nat.le_of_not_lt finished)).trans (Nat.le_add_left _ _)
  | lock place | check place | wait place => exact goto_paid place (Nat.le_refl _)

variable [LinearOrder κ] {key : Priority → Packet → κ}

theorem wakeAll_same (state : State κ n) (id : Fin n) :
    (if state.workers id = .waiting then .lock else state.workers id : WorkerPc κ).done =
        (state.workers id).done ∧
      (if state.workers id = .waiting then .lock else state.workers id : WorkerPc κ).begun =
        (state.workers id).begun := by
  split
  · rename_i asleep
    rw [asleep]
    exact ⟨rfl, rfl⟩
  · exact ⟨rfl, rfl⟩

theorem step_paid {action : Action κ n} (stepped : state.step key action = some next) :
    next.done + state.spent ≤ state.done + next.spent := by
  cases step_moves stepped with
  | arrive | disconnect | stop | notifyNobody => exact Nat.le_refl _
  | tick elapsed => exact Nat.add_le_add_left (Servers.total_tick _ _ _) _
  | dispatch move =>
      cases move with
      | wakeAll place =>
          simp only [done, spent, Servers.total, (state.wakeAll_same _).1, (state.wakeAll_same _).2]
          exact Nat.le_refl _
      | top | pass | take | skip | push => exact Nat.le_refl _
  | @notifyOne id rest place asleep =>
      have woken := @goto_paid _ _ state id .lock _ asleep (Nat.le_refl _)
      exact woken
  | run move => exact move.paid
  | pop place greatest => exact goto_paid place (Nat.le_refl _)
  | wake asleep => exact goto_paid asleep (Nat.le_refl _)
  | @forward id task room place =>
      have update := @Servers.update_paid _ _ _ WorkerPc.begun _ WorkerPc.done state.clock state.workers
        id .lock (processingDuration task.packet) (by
          rw [place]
          simp only [WorkerPc.done, WorkerPc.begun, Nat.zero_add, Nat.le_refl])
      simp only [done, spent, goto, workload_trySend]
      omega

end State

def pacedStage [LinearOrder κ] (key : Priority → Packet → κ) (n : Nat) : PacedStage where
  toStage := (fed key n).toStage
  threads := n
  cost := processingDuration
  least := 50000
  done := State.done
  spent := State.spent
  least_le := le_processingDuration
  initial_clock := rfl
  initial_done := by
    change workload processingDuration (handedAll fun _ => .initial) + ∑ _ : Fin n, 0 = 0
    rw [handedAll_initial, workload_zero, Finset.sum_const_zero, Nat.add_zero]
  paid _ moved := by
    obtain ⟨_, stepped⟩ := Wiring.moves_step moved
    exact State.step_paid stepped
  handed state := Nat.le_add_right _ _
  spent_le state := by
    have bound := @Servers.total_le _ _ _ WorkerPc.begun state.clock state.workers
    rw [Fintype.card_fin] at bound
    exact bound

end EdfPipeline.Gedf
