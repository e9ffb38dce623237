import EdfPipeline.SingleCpu.Scheduler
import EdfPipeline.Library.EarliestFirst

/-!
# Steps of the single-CPU scheduler

What a call of `process_next` and a registration can do in one step. The scan of
the queues finds the earliest front, so a selected queue is never empty.
-/

set_option autoImplicit false

namespace EdfPipeline.SingleCpu

open EarliestFirst
open Edf (EDFTask)

theorem datagramSizeHint_ne_zero (available : Option Nat) : datagramSizeHint available ≠ 0 := by
  cases available with
  | none => decide
  | some bytes =>
      simp only [datagramSizeHint]
      split
      · omega
      · decide

theorem keepEarliest_eq_keepLeast (edfQueues : PriorityTable (List EDFTask)) :
    keepEarliest edfQueues =
      keepLeast fun priority => (edfQueues priority).head?.map EDFTask.deadline := by
  funext best priority
  cases found : (edfQueues priority).head? with
  | none => simp only [keepEarliest, keepLeast, found, Option.map_none]
  | some task => cases best <;> simp only [keepEarliest, keepLeast, found, Option.map_some]

/-- The scan finds a queue whose front has the earliest deadline of all fronts. -/
theorem earliest_spec {edfQueues : PriorityTable (List EDFTask)} {priority : Priority}
    {deadline : Instant} (found : earliest edfQueues = some (priority, deadline)) :
    ∃ task rest, edfQueues priority = task :: rest ∧ ∀ other ∈ priorities,
      ∀ front ∈ (edfQueues other).head?, task.deadline ≤ front.deadline := by
  have above : priorities.Pairwise Priority.Above := by decide
  have first := foldl_keepLeast (fun priority => (edfQueues priority).head?.map EDFTask.deadline)
    above
  rw [← keepEarliest_eq_keepLeast] at first
  change FirstLeast _ _ _ (earliest edfQueues) at first
  rw [found] at first
  obtain ⟨_, held, least⟩ := first
  obtain ⟨task, front, same⟩ := Option.map_eq_some_iff.mp held
  obtain ⟨rest, here⟩ := List.head?_eq_some_iff.mp front
  refine ⟨task, rest, here, ?_⟩
  intro other member front there
  have order := least other member _ (Option.map_eq_some_iff.mpr ⟨front, there, rfl⟩)
  rw [same]
  rcases order with earlier | ⟨equal, _⟩
  · exact Nat.le_of_lt earlier
  · exact Nat.le_of_eq equal

namespace State

inductive Moves (state : State) : Action → State → Prop where
  | addSocket {socket : Nat} {priority : Priority} {latencyBudget : Duration}
      (unlocked : state.call.holdsConfigs = false) :
      Moves state (.addSocket socket priority latencyBudget) { state with
        socketConfigs := state.socketConfigs.set priority
          (state.socketConfigs priority ++ [{ socket, latencyBudget }]) }
  | tick (elapsed : Duration) :
      Moves state (.tick elapsed) { state with clock := state.clock + elapsed }
  | processNext (place : state.call = .idle) :
      Moves state .processNext { state with call := .refill priorities }
  | refilled (place : state.call = .refill []) : Moves state .run { state with call := .select }
  | refill {priority : Priority} {rest : List Priority}
      (place : state.call = .refill (priority :: rest)) (empty : state.edfQueues priority = []) :
      Moves state .run { state with call := .next priority (state.socketConfigs priority) rest }
  | filled {priority : Priority} {rest : List Priority}
      (place : state.call = .refill (priority :: rest)) (waiting : state.edfQueues priority ≠ []) :
      Moves state .run { state with call := .refill rest }
  | next {priority : Priority} {config : SocketConfig} {sockets : List SocketConfig}
      {rest : List Priority} (place : state.call = .next priority (config :: sockets) rest)
      (running : state.running = true) :
      Moves state .run { state with call := .receive priority config sockets rest }
  | leave {priority : Priority} {sockets : List SocketConfig} {rest : List Priority}
      (place : state.call = .next priority sockets rest)
      (ends : sockets = [] ∨ state.running = false) :
      Moves state .run { state with call := .refill rest }
  | dry {priority : Priority} {config : SocketConfig} {sockets : List SocketConfig}
      {rest : List Priority} {available : Option Nat} {outcome : RecvOutcome}
      (place : state.call = .receive priority config sockets rest)
      (nothing : ∀ byte bytes, outcome ≠ .datagram (byte :: bytes)) :
      Moves state (.recv available outcome) { state with call := .next priority sockets rest }
  | read {priority : Priority} {config : SocketConfig} {sockets : List SocketConfig}
      {rest : List Priority} {available : Option Nat} {byte : UInt8} {bytes : List UInt8}
      (place : state.call = .receive priority config sockets rest) :
      Moves state (.recv available (.datagram (byte :: bytes)))
        { state.pushBack priority (.of (state.packet priority config (byte :: bytes))) with
          call := .next priority sockets rest
          nextPacketId := state.nextPacketId + 1 }
  | idle (place : state.call = .select) : Moves state .run { state with call := .idle }
  | take {priority : Priority} {task : EDFTask} {rest : List EDFTask} (place : state.call = .select)
      (front : state.edfQueues priority = task :: rest)
      (least : ∀ other ∈ priorities, ∀ front ∈ (state.edfQueues other).head?,
        task.deadline ≤ front.deadline) :
      Moves state .run { state with
        edfQueues := state.edfQueues.set priority rest
        call := .busy task.packet state.clock }
  | spin {packet : Packet} {start : Instant} (place : state.call = .busy packet start)
      (unfinished : state.clock - start < processingTime packet) : Moves state .run state
  | done {packet : Packet} {start : Instant} (place : state.call = .busy packet start)
      (finished : ¬ state.clock - start < processingTime packet) :
      Moves state .run { state with call := .send packet }
  | forward {packet : Packet} {room : Bool} (place : state.call = .send packet) :
      Moves state (.send room) (state.forward packet room)

theorem runCall_moves {state next : State} (stepped : state.runCall = some next) :
    Moves state .run next := by
  cases place : state.call with
  | refill classes =>
      cases classes with
      | nil =>
          simp only [runCall, place, Option.some.injEq] at stepped
          cases stepped
          exact .refilled place
      | cons priority rest =>
          simp only [runCall, place] at stepped
          split at stepped
          · rename_i empty
            cases stepped
            exact .refill place empty
          · rename_i waiting
            cases stepped
            exact .filled place waiting
  | next priority sockets rest =>
      cases sockets with
      | nil =>
          simp only [runCall, place, Option.some.injEq] at stepped
          cases stepped
          exact .leave place (.inl rfl)
      | cons config sockets =>
          simp only [runCall, place] at stepped
          split at stepped
          · rename_i running
            cases stepped
            exact .next place running
          · rename_i stopped
            cases stepped
            exact .leave place (.inr (Bool.eq_false_of_not_eq_true stopped))
  | select =>
      simp only [runCall, place, Option.some.injEq, select] at stepped
      split at stepped
      · cases stepped
        exact .idle place
      · rename_i found
        obtain ⟨task, rest, front, least⟩ := earliest_spec found
        rw [front] at stepped
        cases stepped
        exact .take place front least
  | busy packet start =>
      simp only [runCall, place] at stepped
      split at stepped
      · rename_i unfinished
        cases stepped
        exact .spin place unfinished
      · rename_i finished
        cases stepped
        exact .done place finished
  | idle | receive priority config sockets rest | send packet => simp [runCall, place] at stepped

theorem recv_moves {state next : State} {available : Option Nat} {outcome : RecvOutcome}
    (stepped : state.recv available outcome = some next) :
    Moves state (.recv available outcome) next := by
  cases place : state.call with
  | receive priority config sockets rest =>
      simp only [recv, place, if_neg (datagramSizeHint_ne_zero available)] at stepped
      split at stepped
      · cases stepped
        exact .read place
      all_goals
        cases stepped
        exact .dry place (by simp)
  | idle | refill | next | select | busy | send => simp [recv, place] at stepped

theorem step_moves {state next : State} {action : Action} (stepped : state.step action = some next) :
    Moves state action next := by
  cases action with
  | addSocket socket priority latencyBudget =>
      simp only [step] at stepped
      split at stepped
      · cases stepped
      · rename_i unlocked
        cases stepped
        exact .addSocket (Bool.eq_false_of_not_eq_true unlocked)
  | tick elapsed =>
      cases stepped
      exact .tick elapsed
  | processNext =>
      simp only [step] at stepped
      split at stepped
      · rename_i place
        cases stepped
        exact .processNext place
      · cases stepped
  | run => exact runCall_moves stepped
  | recv available outcome => exact recv_moves stepped
  | send room =>
      simp only [step] at stepped
      split at stepped
      · rename_i place
        cases stepped
        exact .forward place
      · cases stepped

end State

end EdfPipeline.SingleCpu
