import EdfPipeline.SingleCpu.Stage
import EdfPipeline.Pipeline.Halting

/-!
# The end of the single-CPU scheduler

The scheduler's own flag stays set, so a call that has begun still reads every
socket it has not come to, and ends.
-/

set_option autoImplicit false

namespace EdfPipeline.SingleCpu

/-- The steps in `refill_edf` for the sockets of a class, but for the first. -/
def socketRank (sockets : List SocketConfig) : Nat := 2 * sockets.length + 1

/-- The steps of STEP 1 still to come, and those after it. -/
def refillRank (configs : PriorityTable (List SocketConfig)) (rest : List Priority) : Nat :=
  (rest.map fun priority => socketRank (configs priority) + 1).sum + 4

/-- The steps a call still takes, without those that wait. -/
def Call.rank (configs : PriorityTable (List SocketConfig)) : Call → Nat
  | .idle => 0
  | .send _ => 1
  | .busy _ _ => 2
  | .select => 3
  | .refill rest => refillRank configs rest
  | .next _ sockets rest => socketRank sockets + refillRank configs rest
  | .receive _ _ sockets rest => socketRank sockets + 1 + refillRank configs rest

namespace State

def rank (state : State) : Nat := state.call.rank state.socketConfigs

/-- The simulated processing is not over. -/
def waits (state : State) : Action → Bool
  | .run =>
      match state.call with
      | .busy packet start => state.clock - start < processingTime packet
      | _ => false
  | _ => false

variable {state next : State} {action : Action}

theorem refillRank_cons (configs : PriorityTable (List SocketConfig)) (priority : Priority)
    (rest : List Priority) :
    refillRank configs (priority :: rest) =
      socketRank (configs priority) + 1 + refillRank configs rest := by
  simp only [refillRank, List.map_cons, List.sum_cons, Nat.add_assoc]

theorem call_rank (goes : wiring.begins state action = false) (own : wiring.own action = true)
    (stepped : state.step action = some next) :
    next.rank + (!state.waits action).toNat ≤ state.rank := by
  have once : (!state.waits action).toNat ≤ 1 := Bool.toNat_le _
  cases step_moves stepped with
  | addSocket | tick => cases own
  | processNext => cases goes
  | spin place unfinished => simp [waits, place, unfinished]
  | refill place | filled place =>
      simp only [rank, place, Call.rank, refillRank_cons]
      omega
  | next place | leave place | dry place | read place =>
      simp only [rank, place, Call.rank, socketRank, pushBack, List.length_cons]
      omega
  | refilled place | idle place | take place | done place | forward place =>
      simp only [rank, place, Call.rank, refillRank, List.map_nil, List.sum_nil, forward]
      omega

/-- A call that has begun goes on, if time passes. -/
theorem call_progress (state : State) (busy : state.call ≠ .idle) :
    ∃ elapsed action, wiring.own action = true ∧
      wiring.begins { state with clock := state.clock + elapsed } action = false ∧
      ({ state with clock := state.clock + elapsed } : State).waits action = false ∧
      ∃ next, ({ state with clock := state.clock + elapsed } : State).step action = some next := by
  cases place : state.call with
  | idle => exact absurd place busy
  | refill rest =>
      refine ⟨0, .run, rfl, rfl, by simp [waits], ?_⟩
      cases rest with
      | nil => exact ⟨_, rfl⟩
      | cons priority rest =>
          simp only [step, runCall]
          split <;> exact ⟨_, rfl⟩
  | next priority sockets rest =>
      refine ⟨0, .run, rfl, rfl, by simp [waits], ?_⟩
      cases sockets with
      | nil => exact ⟨_, rfl⟩
      | cons config sockets =>
          simp only [step, runCall]
          split <;> exact ⟨_, rfl⟩
  | receive priority config sockets rest =>
      refine ⟨0, .recv none .wouldBlock, rfl, rfl, rfl, ?_⟩
      simp only [step, recv, if_neg (datagramSizeHint_ne_zero none)]
      exact ⟨_, rfl⟩
  | select => exact ⟨0, .run, rfl, rfl, by simp [waits], _, rfl⟩
  | busy packet start =>
      have finished := over_in_time state.clock start (processingTime packet)
      refine ⟨start + processingTime packet, .run, rfl, rfl, ?_, _, if_neg finished⟩
      simp [waits, finished]
  | send packet => exact ⟨0, .send true, rfl, rfl, rfl, _, rfl⟩

end State

theorem told_rank {thread next : Thread} {signal : Signal}
    (moved : wiring.moves State.step thread (.inl signal) = some next) :
    next.scheduler.rank ≤ thread.scheduler.rank := by
  refine @LoopWiring.told_rank _ _ wiring State.step _ _ State.rank _ ?_ ?_ moved
  · rintro state priority packet action after ⟨⟩
  · intro state elapsed after stepped
    cases stepped
    exact Nat.le_refl _

theorem work_rank {thread next : Thread} {action : Action} (stopped : thread.running = false)
    (moved : wiring.moves State.step thread (.inr action) = some next) :
    next.scheduler.rank + (!thread.scheduler.waits action).toNat ≤ thread.scheduler.rank := by
  obtain ⟨own, goes, stepped⟩ := LoopWiring.stopped_work stopped moved
  exact State.call_rank goes own stepped

/-- The thread has ended when no call is running. -/
def haltingStage (registrations : List Registration) : HaltingStage where
  toStage := stage registrations
  rank thread := thread.scheduler.rank
  ended thread := thread.scheduler.call = .idle
  waits thread action := thread.scheduler.waits action
  initial_running := rfl
  flag := LoopWiring.moves_flag
  told_rank := told_rank
  work_rank := work_rank
  progress _ _ busy := by
    obtain ⟨elapsed, action, own, goes⟩ := State.call_progress _ busy
    refine @LoopWiring.progress _ _ wiring State.step _ action elapsed State.waits own ?_
    intro state stepped
    cases stepped
    exact goes

end EdfPipeline.SingleCpu
