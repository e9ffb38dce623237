import EdfPipeline.MultiWorker.Stage
import EdfPipeline.Pipeline.Pace

/-!
# The pace of the multi-worker scheduler

Each worker processes one item at a time. What it completes is handed over or waits
in the tracker of its class for an earlier number.
-/

set_option autoImplicit false

namespace EdfPipeline.MultiWorker

open ReorderBuffer Ledger

namespace Pc

/-- When the processing in progress began. -/
def begun : Pc → Option Instant
  | .busy _ start => some start
  | .top | .readPriorityLimits _ | .drain _ | .select | .immediate _ _ | .poll _ _ | .guard _ _
  | .guardLoop _ _ _ _ | .guardSpin _ _ _ _ | .guardRecheck _ _ _ | .received _ _ _ | .prepared _ _
  | .process _ | .complete _ => none

/-- The work of the item that was processed and not yet completed. -/
def done : Pc → Nat
  | .complete scheduled => processingDuration scheduled.workItem.packet
  | .top | .readPriorityLimits _ | .drain _ | .select | .immediate _ _ | .poll _ _ | .guard _ _
  | .guardLoop _ _ _ _ | .guardSpin _ _ _ _ | .guardRecheck _ _ _ | .received _ _ _ | .prepared _ _
  | .process _ | .busy _ _ => 0

/-- The worker is not processing, and has nothing to complete. -/
structure Free (pc : Pc) : Prop where
  begun : pc.begun = none
  done : pc.done = 0

end Pc

/-- The packets of a class the tracker was given, and the output after it. -/
def SequenceTracker.completed (tracker : SequenceTracker) (output : OutputQueue) : Multiset Packet :=
  ↑output.handed + (Pending.items tracker.inner.pending).map Prod.snd

namespace Account

variable {tracker : SequenceTracker} {output : OutputQueue} {taken numbered : List Packet}
  {outstanding : Multiset (Nat × Packet)} {waiting : Multiset Packet}

/-- A numbered packet was completed, or is outstanding. -/
theorem split (account : Account tracker output taken numbered outstanding waiting) :
    (↑numbered : Multiset Packet) = tracker.completed output + outstanding.map Prod.snd := by
  have packets := congrArg (Multiset.map Prod.snd) account.buffered.split
  rw [Multiset.map_add, Multiset.map_add, map_snd_stamped, map_snd_stamped] at packets
  rw [packets, SequenceTracker.completed, account.handed]
  rfl

theorem complete_completed {sequence : Nat} {packet : Packet}
    (account : Account tracker output taken numbered ((sequence, packet) ::ₘ outstanding) waiting)
    (room : Nat → Bool) :
    (tracker.complete sequence packet room output).1.completed
        (tracker.complete sequence packet room output).2 =
      {packet} + tracker.completed output := by
  have before := account.split
  rw [(account.complete room).split, Multiset.map_cons, ← Multiset.singleton_add, ← add_assoc] at before
  rw [add_right_cancel before]
  exact add_comm _ _

end Account

namespace CompletionRouter

def completed (router : CompletionRouter) : Multiset Packet :=
  ∑ priority, (router.trackers priority).completed (router.outputQueues priority)

/-- Drawing a number completes nothing. -/
theorem prepare_completed (router : CompletionRouter) (priority : Priority) (packet : Packet) :
    (router.prepare priority packet).2.completed = router.completed := by
  refine Finset.sum_congr rfl ?_
  intro other _
  rw [prepare_trackers]
  split
  · rename_i same
    subst same
    rfl
  · rfl

end CompletionRouter

theorem Books.Accounted.complete_completed {books : Books} {item : ScheduledItem}
    {held : Multiset ScheduledItem} (accounted : books.Accounted)
    (holding : books.held = item ::ₘ held) (room : Nat → Bool) :
    (books.completion.complete item.workItem room).completed =
      {item.workItem.packet} + books.completion.completed := by
  have account := accounted item.priority
  rw [holding, Multiset.cons_add, numbersOf_cons_self] at account
  have grown := account.complete_completed room
  obtain ⟨tracker, output⟩ := books.completion.complete_self item.workItem room
  rw [← tracker, ← output] at grown
  unfold CompletionRouter.completed
  rw [← Finset.add_sum_erase _ _ (Finset.mem_univ item.priority), grown, add_assoc,
    ← Finset.add_sum_erase Finset.univ (fun priority =>
      (books.completion.trackers priority).completed (books.completion.outputQueues priority))
      (Finset.mem_univ item.priority)]
  congr 2
  refine Finset.sum_congr rfl ?_
  intro other member
  obtain ⟨tracker, output⟩ := books.completion.complete_other item.workItem room
    (Finset.ne_of_mem_erase member)
  rw [tracker, output]

namespace State

def done (state : State) : Nat :=
  workload processingDuration state.completion.completed + ∑ id, (state.workers id).pc.done

def spent (state : State) : Nat :=
  Servers.total (fun worker : Worker => worker.pc.begun) state.clock state.workers

/-- What a step adds to the work done it adds to the time the workers had. -/
def Paid (state next : State) : Prop := next.done + state.spent ≤ state.done + next.spent

variable {state next : State} {id : WorkerId}

/-- A step that only moves one worker on. -/
theorem worker_paid {worker : Worker} {old : Pc} (place : (state.workers id).pc = old)
    (workers : next.workers = Function.update state.workers id worker)
    (clock : next.clock = state.clock)
    (completed : next.completion.completed = state.completion.completed)
    (paid : worker.pc.done + Servers.spent state.clock old.begun ≤
      old.done + Servers.spent state.clock worker.pc.begun) : state.Paid next := by
  subst place
  have update := @Servers.update_paid _ _ _ (fun worker : Worker => worker.pc.begun) _
    (fun worker => worker.pc.done) state.clock state.workers id worker 0 paid
  unfold Paid done spent
  rw [workers, clock, completed]
  omega

theorem free_paid {worker : Worker} {old : Pc} (place : (state.workers id).pc = old)
    (workers : next.workers = Function.update state.workers id worker)
    (clock : next.clock = state.clock)
    (completed : next.completion.completed = state.completion.completed)
    (before : old.Free) (after : worker.pc.Free) : state.Paid next := by
  refine worker_paid place workers clock completed ?_
  rw [before.begun, before.done, after.begun, after.done]

theorem goto_paid {pc old : Pc} (place : (state.workers id).pc = old) (before : old.Free)
    (after : pc.Free) : state.Paid (state.goto id pc) :=
  free_paid place rfl rfl rfl before after

theorem push_paid {item : ScheduledItem} {accepted refused old : Pc}
    (place : (state.workers id).pc = old) (before : old.Free) (free : accepted.Free)
    (free' : refused.Free) : state.Paid (state.push id item accepted refused) := by
  by_cases full : (state.workers id).QuotaReached item.priority
  · rw [push_refused full]
    exact free_paid place rfl rfl rfl before free'
  · rw [push_accepted full]
    exact free_paid place rfl rfl rfl before free

theorem displace_paid {scheduled : ScheduledItem} {initial : Priority} {next old : Pc}
    (place : (state.workers id).pc = old) (before : old.Free) (free : next.Free) :
    state.Paid (state.displace id scheduled initial next) := by
  by_cases full : (state.workers id).QuotaReached scheduled.priority
  · rw [displace_refused full]
    exact free_paid place rfl rfl rfl before free
  · rw [displace_accepted full]
    exact free_paid place rfl rfl rfl before free

theorem runWorker_paid (stepped : state.runWorker id = some next) : state.Paid next := by
  cases place : (state.workers id).pc with
  | top =>
      simp only [runWorker, place, Option.some.injEq] at stepped
      subst stepped
      exact free_paid place rfl rfl rfl ⟨rfl, rfl⟩ ⟨rfl, rfl⟩
  | readPriorityLimits rest =>
      cases rest with
      | nil =>
          simp only [runWorker, place, Option.some.injEq] at stepped
          subst stepped
          exact goto_paid place ⟨rfl, rfl⟩ ⟨rfl, rfl⟩
      | cons priority rest =>
          simp only [runWorker, place, Option.some.injEq] at stepped
          subst stepped
          exact free_paid place rfl rfl rfl ⟨rfl, rfl⟩ ⟨rfl, rfl⟩
  | drain rest =>
      cases rest with
      | nil =>
          simp only [runWorker, place, Option.some.injEq] at stepped
          subst stepped
          exact free_paid place rfl rfl rfl ⟨rfl, rfl⟩ ⟨rfl, rfl⟩
      | cons priority rest =>
          simp only [runWorker, place] at stepped
          repeat' split at stepped
          all_goals
            cases stepped
            exact free_paid place rfl rfl rfl ⟨rfl, rfl⟩ ⟨rfl, rfl⟩
  | received site packet ticket =>
      simp only [runWorker, place, Option.some.injEq] at stepped
      subst stepped
      have completed := state.completion.prepare_completed site.priority packet
      exact free_paid place rfl rfl completed ⟨rfl, rfl⟩ ⟨rfl, rfl⟩
  | prepared site item =>
      cases site with
      | drain priority rest =>
          simp only [runWorker, place, Option.some.injEq] at stepped
          subst stepped
          exact push_paid place ⟨rfl, rfl⟩ ⟨rfl, rfl⟩ ⟨rfl, rfl⟩
      | poll scheduled initial =>
          simp only [runWorker, place] at stepped
          split at stepped
          · cases stepped
            exact displace_paid place ⟨rfl, rfl⟩ ⟨rfl, rfl⟩
          · cases stepped
            exact push_paid place ⟨rfl, rfl⟩ ⟨rfl, rfl⟩ ⟨rfl, rfl⟩
      | guard scheduled initial =>
          simp only [runWorker, place, Option.some.injEq] at stepped
          subst stepped
          exact displace_paid place ⟨rfl, rfl⟩ ⟨rfl, rfl⟩
  | process scheduled =>
      simp only [runWorker, place, Option.some.injEq] at stepped
      subst stepped
      refine worker_paid place rfl rfl rfl ?_
      simp only [Worker.goto, Pc.begun, Servers.spent_begin]
      exact Nat.le_refl _
  | busy scheduled start =>
      simp only [runWorker, place] at stepped
      split at stepped
      · cases stepped
        exact Nat.le_refl _
      · rename_i finished
        cases stepped
        refine worker_paid place rfl rfl rfl ?_
        exact (Servers.spent_done (Nat.le_of_not_lt finished)).trans (Nat.le_add_left _ _)
  | complete scheduled =>
      simp only [runWorker, place] at stepped
      contradiction
  | select =>
      simp only [runWorker, place] at stepped
      split at stepped
      · cases stepped
        exact goto_paid place ⟨rfl, rfl⟩ ⟨rfl, rfl⟩
      · cases stepped
  | immediate | poll | guard | guardLoop | guardRecheck =>
      simp only [runWorker, place] at stepped
      repeat' split at stepped
      all_goals
        cases stepped
        exact free_paid place rfl rfl rfl ⟨rfl, rfl⟩ ⟨rfl, rfl⟩
  | guardSpin =>
      simp only [runWorker, place] at stepped
      repeat' split at stepped
      all_goals
        cases stepped
        first
        | exact Nat.le_refl _
        | exact free_paid place rfl rfl rfl ⟨rfl, rfl⟩ ⟨rfl, rfl⟩

theorem completeWorker_paid {room : Nat → Bool} (accounted : state.books.Accounted)
    (stepped : state.completeWorker id room = some next) : state.Paid next := by
  unfold completeWorker at stepped
  split at stepped
  · rename_i scheduled place
    cases stepped
    have held : (state.workers id).held = scheduled ::ₘ ((state.workers id).goto .top).held := by
      rw [Worker.held, Worker.held, place, Multiset.cons_coe, Multiset.coe_eq_coe]
      exact List.perm_middle
    have completed := accounted.complete_completed (held_of_cons held) room
    have update := @Servers.update_paid _ _ _ (fun worker : Worker => worker.pc.begun) _
      (fun worker => worker.pc.done) state.clock state.workers id ((state.workers id).goto .top)
      (processingDuration scheduled.workItem.packet) (by
        rw [place]
        simp only [Worker.goto, Pc.done, Pc.begun, Nat.zero_add, Nat.le_refl])
    have work := congrArg (workload processingDuration) completed
    rw [workload_add, workload_singleton] at work
    unfold Paid done spent
    simp only [goto, setWorker]
    change workload processingDuration (state.completion.complete scheduled.workItem room).completed =
      _ + workload processingDuration state.completion.completed at work
    rw [work]
    omega
  · cases stepped

theorem step_paid {action : Action} (accounted : state.books.Accounted)
    (stepped : state.step action = some next) : state.Paid next := by
  cases action with
  | arrive | disconnect =>
      cases stepped
      exact Nat.le_refl _
  | tick elapsed =>
      cases stepped
      exact Nat.add_le_add_left (Servers.total_tick _ _ _) _
  | store store =>
      simp only [step] at stepped
      split at stepped
      · cases stepped
        exact Nat.le_refl _
      · cases stepped
  | run id => exact runWorker_paid stepped
  | pop id item =>
      simp only [step, popWorker] at stepped
      split at stepped
      · rename_i enabled
        cases stepped
        exact free_paid enabled.1 rfl rfl rfl ⟨rfl, rfl⟩ ⟨rfl, rfl⟩
      · cases stepped
  | complete id room => exact completeWorker_paid accounted stepped

/-- What was handed over was completed. -/
theorem handed_completed (state : State) :
    handedAll state.completion.outputQueues ≤ state.completion.completed :=
  Finset.sum_le_sum fun _ _ => Multiset.le_add_right _ _

end State

/-- The stage with its three workers. -/
def pacedStage : PacedStage where
  toStage := fed.toStage
  threads := 3
  cost := processingDuration
  least := 50000
  done threads := threads.scheduler.done
  spent threads := threads.scheduler.spent
  least_le := le_processingDuration
  initial_clock := rfl
  initial_done := by decide
  paid kept moved := by
    have accounts : State.Kept _ := kept.1.1
    rcases LoopWiring.moves_behind moved with ⟨own, _, stepped, _⟩ | ⟨_, rfl⟩
    · exact State.step_paid accounts.accounted stepped
    · exact Nat.le_refl _
  handed threads := by
    refine (workload_le _ threads.scheduler.handed_completed).trans ?_
    exact Nat.le_add_right _ _
  spent_le threads := Servers.total_le _ _

end EdfPipeline.MultiWorker
