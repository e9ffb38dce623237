import EdfPipeline.Gedf.Stage
import EdfPipeline.Pipeline.Halting
import Mathlib.Algebra.Order.BigOperators.Group.Finset

/-!
# The end of the shared run queue

The dispatcher finishes its pass, wakes the workers and returns. A worker empties
the heap before it returns, but one that read `running` while it was set may
sleep on.
-/

set_option autoImplicit false

namespace EdfPipeline.Gedf

open EarliestFirst

variable {κ : Type} {n : Nat}

/-- The steps of a worker until it returns, without those for the tasks of the heap. -/
def WorkerPc.rank : WorkerPc κ → Nat
  | .returned => 0
  | .load => 1
  | .check => 2
  | .lock => 3
  | .waiting | .forward _ => 4
  | .wait | .busy _ _ => 5
  | .process _ => 6

/-- The steps of the dispatcher, and what the tasks it pushes cost the workers. -/
def DispatcherPc.rank : DispatcherPc κ → Nat
  | .returned => 0
  | .wakeAll => 1
  | .top => 2
  | .poll rest => 3 + 8 * rest.length
  | .notify rest => 4 + 8 * rest.length
  | .push _ rest => 10 + 8 * rest.length

namespace State

def rank (state : State κ n) : Nat :=
  state.dispatcher.rank + 5 * state.heap.length + ∑ id, (state.workers id).rank

/-- The simulated processing is not over. -/
def waits (state : State κ n) : Action κ n → Bool
  | .run id =>
      match state.workers id with
      | .busy task start => state.clock - start < processingDuration task.packet
      | _ => false
  | _ => false

/-- All threads have returned, but for workers that are asleep. -/
def Ended (state : State κ n) : Prop :=
  state.dispatcher = .returned ∧ ∀ id, state.workers id = .returned ∨ state.workers id = .waiting

def goes : Action κ n → Bool
  | .stop => false
  | _ => true

theorem own_goes (action : Action κ n) (own : (wiring κ n).own action = true) : goes action = true := by
  cases action with
  | stop => cases own
  | arrive | disconnect | tick | dispatch | notify | run | pop | wake | forward => rfl

variable {state next : State κ n}

/-- A worker that goes on takes off what its places differ by. -/
theorem goto_rank {id : Fin n} {pc old : WorkerPc κ} {saved : Nat} (place : state.workers id = old)
    (less : pc.rank + saved ≤ old.rank) : (state.goto id pc).rank + saved ≤ state.rank := by
  have moved := Ledger.sum_update WorkerPc.rank state.workers id pc
  rw [place] at moved
  simp only [rank, goto]
  omega

theorem WorkerMove.rank_le {id : Fin n} (stopped : state.running = false)
    (move : WorkerMove state id next) :
    next.rank + (!state.waits (.run id)).toNat ≤ state.rank := by
  have once : (!state.waits (.run id)).toNat ≤ 1 := Bool.toNat_le _
  cases move with
  | spin place unfinished => simp [waits, place, unfinished]
  | load place =>
      rw [stopped]
      exact goto_rank place (Nat.add_le_add_left once 0)
  | lock place => exact goto_rank place (Nat.add_le_add_left once 2)
  | check place => exact goto_rank place (Nat.add_le_add_left once 1)
  | wait place => exact goto_rank place (Nat.add_le_add_left once 4)
  | process place => exact goto_rank place (Nat.add_le_add_left once 5)
  | done place => exact goto_rank place (Nat.add_le_add_left once 4)

theorem asleep_rank [DecidableEq κ] (state : State κ n) :
    ∑ id, (if state.workers id = .waiting then .lock else state.workers id : WorkerPc κ).rank ≤
      ∑ id, (state.workers id).rank := by
  refine Finset.sum_le_sum ?_
  intro id _
  split
  · rename_i asleep
    rw [asleep]
    exact Nat.le_succ 3
  · exact Nat.le_refl _

variable [LinearOrder κ] {key : Priority → Packet → κ}

theorem DispatchMove.rank_le (stopped : state.running = false) (move : DispatchMove key state next) :
    next.rank + 1 ≤ state.rank := by
  cases move with
  | top place =>
      simp only [rank, place, stopped, DispatcherPc.rank, Bool.false_eq_true, if_false]
      omega
  | wakeAll place =>
      have woken := state.asleep_rank
      simp only [rank, place, DispatcherPc.rank]
      omega
  | push place free =>
      simp only [rank, place, DispatcherPc.rank, List.length_cons]
      omega
  | pass place | take place taken | skip place failed =>
      simp only [rank, place, setInput, DispatcherPc.rank, List.length_cons, List.length_nil]
      omega

theorem step_rank {action : Action κ n} (stopped : state.running = false)
    (own : (wiring κ n).own action = true) (stepped : state.step key action = some next) :
    next.rank + (!state.waits action).toNat ≤ state.rank := by
  have once : (!state.waits action).toNat ≤ 1 := Bool.toNat_le _
  cases step_moves stepped with
  | arrive | disconnect | tick | stop => cases own
  | dispatch move => exact move.rank_le stopped
  | run move => exact move.rank_le stopped
  | @notifyOne id rest place asleep =>
      have moved := @goto_rank _ _ state id .lock _ 1 asleep (Nat.le_refl 4)
      simp only [rank, goto, place, DispatcherPc.rank] at moved ⊢
      omega
  | notifyNobody place awake =>
      simp only [rank, place, DispatcherPc.rank]
      omega
  | @pop id task place greatest =>
      have shorter := List.length_erase_of_mem greatest.1
      have taken := List.length_pos_of_mem greatest.1
      have moved := Ledger.sum_update WorkerPc.rank state.workers id (.process task)
      rw [place] at moved
      change _ + 2 = _ + 6 at moved
      simp only [rank, goto, shorter]
      omega
  | wake asleep => exact goto_rank asleep (Nat.add_le_add_left once 3)
  | forward place => exact goto_rank place (Nat.add_le_add_left once 3)

theorem step_running {action : Action κ n} (stepped : state.step key action = some next) :
    next.running = (state.running && goes action) := by
  cases step_moves stepped with
  | stop => exact (Bool.and_false _).symm
  | dispatch move => cases move <;> exact (Bool.and_true _).symm
  | run move => cases move <;> exact (Bool.and_true _).symm
  | arrive | disconnect | tick | notifyOne | notifyNobody | pop | wake | forward =>
      exact (Bool.and_true _).symm

/-! ## Threads that go on -/

/-- The worker that holds the mutex gives it up. -/
theorem holder_progress {id : Fin n} (holds : (state.workers id).holdsMutex = true) :
    ∃ action, (wiring κ n).own action = true ∧ state.waits action = false ∧
      ∃ next, state.step key action = some next := by
  cases place : state.workers id with
  | check =>
      by_cases empty : state.heap = []
      · refine ⟨.run id, rfl, by simp [waits, place], ?_⟩
        simp [step, runWorker, place, empty]
      · obtain ⟨task, earliest⟩ := exists_earliest QueuedTask.key empty
        have greatest := (greatest_iff_earliest QueuedTask.key task state.heap).mpr earliest
        exact ⟨.pop id task, rfl, rfl, _, if_pos ⟨place, greatest⟩⟩
  | load =>
      refine ⟨.run id, rfl, by simp [waits, place], ?_⟩
      simp [step, runWorker, place]
  | wait =>
      refine ⟨.run id, rfl, by simp [waits, place], ?_⟩
      simp [step, runWorker, place]
  | lock | waiting | process | busy | forward | returned =>
      rw [place] at holds
      cases holds

theorem dispatcher_progress (free : state.Free) (active : state.dispatcher ≠ .returned) :
    ∃ action, (wiring κ n).own action = true ∧ state.waits action = false ∧
      ∃ next, state.step key action = some next := by
  cases place : state.dispatcher with
  | notify rest =>
      by_cases awake : ∀ id, state.workers id ≠ .waiting
      · refine ⟨.notify none, rfl, rfl, ?_⟩
        simp [step, notify, place, awake]
      · obtain ⟨id, asleep⟩ := not_forall_not.mp awake
        refine ⟨.notify (some id), rfl, rfl, ?_⟩
        simp [step, notify, place, asleep]
  | poll rest =>
      refine ⟨.dispatch, rfl, rfl, ?_⟩
      cases rest with
      | nil => simp [step, dispatch, place]
      | cons priority rest =>
          simp only [step, dispatch, place]
          split <;> exact ⟨_, rfl⟩
  | push task rest =>
      refine ⟨.dispatch, rfl, rfl, ?_⟩
      simp [step, dispatch, place, free]
  | top | wakeAll =>
      refine ⟨.dispatch, rfl, rfl, ?_⟩
      simp [step, dispatch, place]
  | returned => exact absurd place active

/-- When nobody holds the mutex, every worker that is awake goes on, if time passes. -/
theorem worker_progress {id : Fin n} (free : state.Free) (returned : state.workers id ≠ .returned)
    (asleep : state.workers id ≠ .waiting) :
    ∃ elapsed action, (wiring κ n).own action = true ∧
      ({ state with clock := state.clock + elapsed } : State κ n).waits action = false ∧
      ∃ next, ({ state with clock := state.clock + elapsed } : State κ n).step key action = some next := by
  cases place : state.workers id with
  | lock =>
      refine ⟨0, .run id, rfl, by simp [waits, place], ?_⟩
      simp only [step, runWorker, place]
      exact ⟨_, if_pos free⟩
  | process task =>
      refine ⟨0, .run id, rfl, by simp [waits, place], ?_⟩
      simp [step, runWorker, place]
  | busy task start =>
      have finished := over_in_time state.clock start (processingDuration task.packet)
      refine ⟨start + processingDuration task.packet, .run id, rfl,
        by simp [waits, place, finished], ?_⟩
      simp [step, runWorker, place, finished]
  | forward task =>
      refine ⟨0, .forward id true, rfl, rfl, ?_⟩
      simp [step, forwardWorker, place]
  | check | load | wait =>
      have holds := free id
      rw [place] at holds
      cases holds
  | waiting => exact absurd place asleep
  | returned => exact absurd place returned

theorem progress (active : ¬ state.Ended) :
    ∃ elapsed action, (wiring κ n).own action = true ∧
      ({ state with clock := state.clock + elapsed } : State κ n).waits action = false ∧
      ∃ next, ({ state with clock := state.clock + elapsed } : State κ n).step key action = some next := by
  by_cases free : state.Free
  · by_cases returned : state.dispatcher = .returned
    · have awake : ¬ ∀ id, state.workers id = .returned ∨ state.workers id = .waiting :=
        fun all => active ⟨returned, all⟩
      obtain ⟨id, awake⟩ := not_forall.mp awake
      obtain ⟨going, awake⟩ := not_or.mp awake
      exact worker_progress free going awake
    · exact ⟨0, @dispatcher_progress _ _ { state with clock := state.clock + 0 } _ key free returned⟩
  · obtain ⟨id, holds⟩ := not_forall.mp free
    exact ⟨0, @holder_progress _ _ { state with clock := state.clock + 0 } _ key id
      (Bool.eq_true_of_not_eq_false holds)⟩

theorem told_rank {signal : Signal}
    (received : (wiring κ n).receive (State.step key) state signal = some next) :
    next.rank ≤ state.rank := by
  obtain ⟨action, stepped, told⟩ := Wiring.receive_step received
  have outside : (wiring κ n).own action = false := by
    cases signal with
    | arrive priority packet => exact told.2 ▸ rfl
    | tick elapsed => exact told ▸ rfl
    | stop => exact told ▸ rfl
  cases step_moves stepped with
  | arrive | disconnect | tick | stop => exact Nat.le_refl _
  | dispatch | run | notifyOne | notifyNobody | pop | wake | forward => cases outside

end State

/-- The scheduler ends with any key and any number of workers. -/
def haltingStage [LinearOrder κ] (key : Priority → Packet → κ) (n : Nat) : HaltingStage where
  toStage := (fed key n).toStage
  rank := State.rank
  ended := State.Ended
  waits := State.waits
  initial_running := rfl
  flag := Wiring.moves_flag State.step_running rfl (fun _ => rfl) (fun _ => rfl) State.own_goes
  told_rank := State.told_rank
  work_rank stopped worked := by
    obtain ⟨own, stepped⟩ := Wiring.work_step worked
    exact State.step_rank stopped own stepped
  progress {state} _ _ active := by
    obtain ⟨elapsed, action, own, goes⟩ := @State.progress _ _ state _ key active
    refine @Wiring.progress _ _ (wiring κ n) (State.step key) state action elapsed State.waits own ?_
    rintro middle ⟨⟩
    exact goes

end EdfPipeline.Gedf
