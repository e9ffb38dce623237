import EdfPipeline.Cedf.Preemption
import Mathlib.Algebra.BigOperators.Group.List.Basic
import Mathlib.Algebra.Ring.Nat

/-!
# The completion estimate of a worker queue

`estimated_completion` is meant to be the time when the worker will have
finished all queued tasks. A push adds to the old estimate, so the estimate
falls behind while the worker idles or takes longer than estimated, and a
completion overwrites it whatever is still queued.
-/

set_option autoImplicit false

namespace EdfPipeline.Cedf

open TransitionSystem (Past recorded Along)

/-- The operations on one queue in the course of time. The worker completes a
task with the reading of the clock it made before it took the lock. -/
inductive Operation where
  | tick (elapsed : Duration)
  | push (task : QueuedTask)
  | tryPop (result : Option QueuedTask)
  | complete (completionNow : Instant)

def WorkerQueue.queuedProcessing (queue : WorkerQueue) : Nat :=
  (queue.heap.map QueuedTask.estimatedProcessing).sum

namespace QueueState

def operate (state : QueueState) : Operation → Option QueueState
  | .tick elapsed => state.step (.tick elapsed)
  | .push task => state.step (.push task)
  | .tryPop result => state.step (.tryPop result)
  | .complete completionNow =>
      if completionNow ≤ state.clock then
        some { state with queue := { state.queue with estimatedCompletion := completionNow } }
      else none

/-- The estimate is no earlier than the end of all queued work, begun now. -/
def Covers (state : QueueState) : Prop :=
  state.clock + state.queue.queuedProcessing ≤ state.queue.estimatedCompletion

/-- The operation leaves the estimate covering the queue. -/
def CoversAfter (state : QueueState) : Operation → Prop
  | .tick _ | .tryPop _ => True
  | operation => ∀ next, state.operate operation = some next → next.Covers

/-- By some operations, one after the other. -/
abbrev OperatesTo : QueueState → QueueState → Prop :=
  Relation.ReflTransGen fun before after =>
    ∃ operation, True ∧ operate before operation = some after

end QueueState

/-! ## Time passed and work taken since the last completion -/

structure Progress where
  elapsed : Nat
  popped : Nat

namespace Progress

def note (progress : Progress) : Operation → Progress
  | .tick elapsed => { progress with elapsed := progress.elapsed + elapsed }
  | .push _ | .tryPop none => progress
  | .tryPop (some task) => { progress with popped := progress.popped + task.estimatedProcessing }
  | .complete _ => { elapsed := 0, popped := 0 }

/-- Counted from the last completion, or from the creation of the queue. -/
def since (past : Past QueueState Operation) : Progress :=
  past.foldl (fun progress entry => progress.note entry.2) { elapsed := 0, popped := 0 }

theorem since_step (past : Past QueueState Operation) (state : QueueState) (operation : Operation) :
    since (past ++ [(state, operation)]) = (since past).note operation := by
  rw [since, List.foldl_append]
  rfl

end Progress

/-- A push finds no more time passed than was estimated for the tasks taken since
the last completion, and a completion finds no work queued and no time passed
since its reading of the clock. -/
def KeepsPace (history : QueueState × Past QueueState Operation) : Operation → Prop
  | .push _ => (Progress.since history.2).elapsed ≤ (Progress.since history.2).popped
  | .complete completionNow => completionNow ≤ history.1.clock →
      completionNow = history.1.clock ∧
        ∀ task ∈ history.1.queue.heap, task.estimatedProcessing = 0
  | .tick _ | .tryPop _ => True

/-! ## The balance of a queue that kept pace -/

/-- The estimate exceeds the end of the queued work by the work taken less the
time passed. -/
def Balanced (history : QueueState × Past QueueState Operation) : Prop :=
  history.1.queue.estimatedCompletion + (Progress.since history.2).elapsed =
    history.1.clock + history.1.queue.queuedProcessing + (Progress.since history.2).popped

theorem covers_iff_of_balance {estimate elapsed clock queued popped : Nat}
    (balance : estimate + elapsed = clock + queued + popped) :
    clock + queued ≤ estimate ↔ elapsed ≤ popped := by
  omega

theorem queuedProcessing_tryPop {queue left : WorkerQueue} {task : QueuedTask}
    (popped : queue.tryPop (some task) = some left) :
    queue.queuedProcessing = task.estimatedProcessing + left.queuedProcessing ∧
      left.estimatedCompletion = queue.estimatedCompletion := by
  simp only [WorkerQueue.tryPop] at popped
  split at popped
  · rename_i earliest
    cases popped
    have removed := (List.perm_cons_erase earliest.1).map QueuedTask.estimatedProcessing
    exact ⟨removed.sum_eq, rfl⟩
  · cases popped

theorem queuedProcessing_eq_zero {queue : WorkerQueue} :
    queue.queuedProcessing = 0 ↔ ∀ task ∈ queue.heap, task.estimatedProcessing = 0 := by
  rw [WorkerQueue.queuedProcessing, List.sum_eq_zero_iff_forall_eq_nat]
  exact List.forall_mem_map

theorem initial_balanced (clock : Instant) : Balanced (QueueState.initial clock, []) := rfl

theorem balanced_tick {estimate passed clock queued popped elapsed : Nat}
    (balance : estimate + passed = clock + queued + popped) :
    estimate + (passed + elapsed) = clock + elapsed + queued + popped := by
  omega

theorem balanced_push {estimate passed clock queued popped cost : Nat}
    (balance : estimate + passed = clock + queued + popped) :
    estimate + cost + passed = clock + (cost + queued) + popped := by
  omega

theorem balanced_pop {estimate passed clock queued popped cost : Nat}
    (balance : estimate + passed = clock + (cost + queued) + popped) :
    estimate + passed = clock + queued + (popped + cost) := by
  omega

theorem operate_balanced {history next : QueueState × Past QueueState Operation}
    {operation : Operation} (balanced : Balanced history) (keeps : KeepsPace history operation)
    (stepped : recorded QueueState.operate history operation = some next) : Balanced next := by
  obtain ⟨state, past⟩ := history
  obtain ⟨after, later⟩ := next
  obtain ⟨moved, rfl⟩ := TransitionSystem.recorded_eq_some.mp stepped
  rw [Balanced, Progress.since_step]
  cases operation with
  | tick elapsed =>
      cases moved
      exact balanced_tick balanced
  | push task =>
      cases moved
      exact balanced_push balanced
  | tryPop result =>
      obtain ⟨queue, popped, rfl⟩ := Option.map_eq_some_iff.mp moved
      cases result with
      | none =>
          simp only [WorkerQueue.tryPop] at popped
          split at popped
          · cases popped
            exact balanced
          · cases popped
      | some task =>
          obtain ⟨removed, estimate⟩ := queuedProcessing_tryPop popped
          rw [Balanced, removed] at balanced
          exact estimate ▸ balanced_pop balanced
  | complete completionNow =>
      simp only [QueueState.operate] at moved
      split at moved
      · rename_i reading
        cases moved
        obtain ⟨now, nothing⟩ := keeps reading
        have empty : state.queue.queuedProcessing = 0 := queuedProcessing_eq_zero.mpr nothing
        change completionNow + 0 = state.clock + state.queue.queuedProcessing + 0
        rw [empty, now]
      · cases moved

theorem covers_iff_of_reading {clock queued completionNow : Nat} (reading : completionNow ≤ clock) :
    clock + queued ≤ completionNow ↔ completionNow = clock ∧ queued = 0 := by
  omega

/-- While the queue keeps pace, an operation leaves the estimate covering the
queue exactly if it keeps pace too. -/
theorem coversAfter_iff_keepsPace {history : QueueState × Past QueueState Operation}
    {operation : Operation} (balanced : Balanced history) :
    history.1.CoversAfter operation ↔ KeepsPace history operation := by
  cases operation with
  | tick elapsed | tryPop result => exact Iff.rfl
  | push task =>
      have balance := @balanced_push _ _ _ _ _ task.estimatedProcessing balanced
      refine Iff.trans ?_ (covers_iff_of_balance balance)
      constructor
      · intro covers
        exact covers _ rfl
      · rintro covers next stepped
        cases stepped
        exact covers
  | complete completionNow =>
      simp only [QueueState.CoversAfter, QueueState.operate, KeepsPace]
      by_cases reading : completionNow ≤ history.1.clock
      · rw [if_pos reading, ← queuedProcessing_eq_zero, ← covers_iff_of_reading reading]
        constructor
        · intro covers _
          exact covers _ rfl
        · rintro covers next stepped
          cases stepped
          exact covers reading
      · rw [if_neg reading]
        exact iff_of_true (fun _ stepped => by cases stepped) fun early => absurd early reading

/-- After every operation of a run the estimate covers the queue exactly if all
operations keep pace. -/
theorem estimate_covers_iff_keeps_pace (clock : Instant) (operations : List Operation) :
    Along (recorded QueueState.operate) (fun history => history.1.CoversAfter)
        (.initial clock, []) operations ↔
      Along (recorded QueueState.operate) KeepsPace (.initial clock, []) operations :=
  TransitionSystem.along_iff_guarded operate_balanced coversAfter_iff_keepsPace
    (initial_balanced clock) operations

/-- A task of 50 µs is pushed into a queue that was created a millisecond ago and
has been empty since. -/
def pushAfterIdling : List Operation :=
  [.tick (Duration.fromMillis 1),
    .push (.of .high (Packet.fromBuffer 0 0 .high [] (Duration.fromMillis 10)) (Duration.fromMillis 1))]

theorem push_after_idling_undercounts :
    ¬ Along (recorded QueueState.operate) (fun history => history.1.CoversAfter)
      (.initial 0, []) pushAfterIdling := by
  intro along
  have covers := (along.2 _ rfl).1 _ rfl
  simp only [QueueState.Covers] at covers
  revert covers
  decide +kernel

/-! ## The queues of the scheduler -/

/-- The reading of the clock a completion is about to store. -/
def Pc.reading : Pc → Option Instant
  | .complete _ completionNow => some completionNow
  | _ => none

theorem Pc.Guarding.reading {job : Job} {pc : Pc} (guarding : pc.Guarding job) :
    pc.reading = none := by
  cases guarding <;> rfl

theorem Pc.Processes.reading {job : Job} {processing : Processing} {pc : Pc}
    (processes : pc.Processes job processing) : pc.reading = none := by
  cases processes <;> rfl

namespace State

variable {n : Nat}

def queueState (state : State n) (id : Fin n) : QueueState where
  clock := state.clock
  queue := state.queues id

def ReadingsPast (state : State n) : Prop :=
  ∀ id, ∀ completionNow ∈ (state.workers id).reading, completionNow ≤ state.clock

/-- What a worker's step can do to its queue. -/
inductive QueueChange (state : State n) (id : Fin n) : WorkerQueue → Prop where
  | same : QueueChange state id (state.queues id)
  | push (task : QueuedTask) : QueueChange state id ((state.queues id).push task)
  | complete (job : Job) (completionNow : Instant)
      (place : state.workers id = .complete job completionNow) :
      QueueChange state id { state.queues id with estimatedCompletion := completionNow }

/-- A step after which this worker has this queue and is at this place. -/
structure WorkerStep (state next : State n) (id : Fin n) (queue : WorkerQueue) (pc : Pc) : Prop where
  clock : next.clock = state.clock
  queues : next.queues = Function.update state.queues id queue
  workers : next.workers = Function.update state.workers id pc
  change : QueueChange state id queue
  reading : ∀ completionNow ∈ pc.reading, completionNow = state.clock

theorem WorkerMove.queues {state next : State n} {id : Fin n} (move : WorkerMove state id next) :
    ∃ queue pc, WorkerStep state next id queue pc := by
  have went {same : State n} {pc : Pc} (clock : same.clock = state.clock)
      (queues : same.queues = state.queues) (workers : same.workers = state.workers)
      (quiet : pc.reading = none) :
      ∃ queue pc', WorkerStep state (same.goto id pc) id queue pc' := by
    refine ⟨state.queues id, pc, clock, ?_, ?_, .same, by simp [quiet]⟩
    · rw [Function.update_eq_self]
      exact queues
    · rw [goto, workers]
  cases move with
  | guardDisplace place | displace place =>
      exact ⟨_, _, rfl, rfl, rfl, .push _, by simp [Pc.reading]⟩
  | complete place =>
      exact ⟨_, _, rfl, rfl, rfl, .complete _ _ place, by simp [Pc.reading]⟩
  | finish place =>
      refine ⟨state.queues id, _, rfl, by rw [Function.update_eq_self]; rfl, rfl, .same, ?_⟩
      intro completionNow read
      exact (Option.some.inj read).symm
  | guard place guarding guarding' empty => exact went rfl rfl rfl guarding'.reading
  | slice place processes processes' => exact went rfl rfl rfl processes'.reading
  | top place => exact went rfl rfl rfl (by split <;> rfl)
  | idle | guardReceive | guardReceived | process | receive | received | restart | done | record =>
      exact went rfl rfl rfl rfl

theorem QueueChange.operates {state : State n} {id : Fin n} {queue : WorkerQueue}
    (change : QueueChange state id queue) (readings : state.ReadingsPast) :
    (state.queueState id).OperatesTo { clock := state.clock, queue } := by
  cases change with
  | same => exact .refl
  | push task => exact .single ⟨.push task, trivial, rfl⟩
  | complete job completionNow place =>
      have reading : completionNow ≤ (state.queueState id).clock := by
        apply readings id
        rw [place]
        rfl
      exact .single ⟨.complete completionNow, trivial, if_pos reading⟩

/-- A step is an operation on the queue of a worker, or leaves it as it is. -/
theorem step_operates {state next : State n} {action : Action n} (id : Fin n)
    (readings : state.ReadingsPast) (stepped : state.step action = some next) :
    (state.queueState id).OperatesTo (next.queueState id) := by
  have updated {worker : Fin n} {queue : WorkerQueue} (clock : next.clock = state.clock)
      (queues : next.queues = Function.update state.queues worker queue)
      (operates : (state.queueState worker).OperatesTo { clock := state.clock, queue }) :
      (state.queueState id).OperatesTo (next.queueState id) := by
    by_cases here : id = worker
    · subst here
      rwa [queueState, queueState, clock, queues, Function.update_self]
    · rw [queueState, queueState, clock, queues, Function.update_of_ne here]
  cases step_moves stepped with
  | arrive | disconnect | stop | forward => exact .refl
  | tick elapsed => exact .single ⟨.tick elapsed, trivial, rfl⟩
  | dispatch move =>
      obtain ⟨_, queues, _, rfl | ⟨worker, task, rfl⟩, rfl⟩ := move.frame
      · exact .refl
      · exact updated rfl rfl (.single ⟨.push task, trivial, rfl⟩)
  | run move =>
      obtain ⟨queue, pc, step⟩ := move.queues
      exact updated step.clock step.queues (step.change.operates readings)
  | @pop worker task queue place popped =>
      refine updated rfl rfl (.single ⟨.tryPop (some task), trivial, ?_⟩)
      exact Option.map_eq_some_iff.mpr ⟨queue, popped, rfl⟩

theorem ReadingsPast.update {state next : State n} {id : Fin n} {pc : Pc}
    (readings : state.ReadingsPast) (clock : next.clock = state.clock)
    (moved : next.workers = Function.update state.workers id pc)
    (fresh : ∀ completionNow ∈ pc.reading, completionNow = state.clock) : next.ReadingsPast := by
  intro other completionNow read
  rw [moved] at read
  rw [clock]
  by_cases here : other = id
  · rw [here, Function.update_self] at read
    exact (fresh completionNow read).le
  · rw [Function.update_of_ne here] at read
    exact readings other completionNow read

theorem step_readingsPast {state next : State n} {action : Action n}
    (readings : state.ReadingsPast) (stepped : state.step action = some next) :
    next.ReadingsPast := by
  cases step_moves stepped with
  | arrive | disconnect | stop => exact readings
  | tick elapsed =>
      intro id completionNow read
      exact (readings id completionNow read).trans (Nat.le_add_right _ _)
  | dispatch move =>
      obtain ⟨_, _, _, _, rfl⟩ := move.frame
      exact readings
  | run move =>
      obtain ⟨queue, pc, step⟩ := move.queues
      exact readings.update step.clock step.workers step.reading
  | pop | forward => exact readings.update rfl rfl (by simp [Pc.reading])

/-- What a run of the scheduler does to the queue of a worker is a run of
operations on that queue. -/
theorem queue_run {final : State n} {actions : List (Action n)} (id : Fin n)
    (ran : run (initial n) actions = some final) :
    ∃ operations, TransitionSystem.run QueueState.operate (.initial 0) operations =
      some (final.queueState id) := by
  let invariant (state : State n) : Prop :=
    state.ReadingsPast ∧ (QueueState.initial 0).OperatesTo (state.queueState id)
  have start : invariant (initial n) := by
    refine ⟨?_, .refl⟩
    intro worker completionNow read
    cases read
  have preserved {state : State n} {action : Action n} {next : State n} (holds : invariant state)
      (stepped : state.step action = some next) : invariant next :=
    ⟨step_readingsPast holds.1 stepped, holds.2.trans (step_operates id holds.1 stepped)⟩
  have reached := (TransitionSystem.run_invariant preserved start ran).2
  obtain ⟨operations, _, operated⟩ := TransitionSystem.exists_run_of_steps reached
  exact ⟨operations, operated⟩

end State

end EdfPipeline.Cedf
