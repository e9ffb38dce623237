import EdfPipeline.Packet
import EdfPipeline.Library.EarliestFirst
import EdfPipeline.Library.TransitionSystem

/-!
# C-EDF worker queues

A worker's heap is ordered by the slack a task had when it was dispatched. The
slack left when it is popped is ordered by the latest start, which the key
follows only among tasks dispatched under like circumstances.
-/

set_option autoImplicit false

namespace EdfPipeline.Cedf

open EarliestFirst

structure QueuedTask where
  slackTime : Duration
  deadline : Instant
  priority : Priority
  packet : Packet
  estimatedProcessing : Duration
  deriving DecidableEq, Repr

def calculateSlackTime (packet : Packet) (now : Instant) : Duration :=
  packet.deadline - (now + processingDuration packet)

def QueuedTask.of (priority : Priority) (packet : Packet) (now : Instant) : QueuedTask where
  slackTime := calculateSlackTime packet now
  deadline := packet.deadline
  priority
  packet
  estimatedProcessing := processingDuration packet

namespace QueuedTask

def actualSlack (task : QueuedTask) (now : Instant) : Int :=
  task.deadline - now - task.estimatedProcessing

/-- The last instant at which the rest of the task can still start in time. -/
def latestStart (task : QueuedTask) : Int := task.deadline - task.estimatedProcessing

theorem actualSlack_le_iff (task other : QueuedTask) (now : Instant) :
    task.actualSlack now ≤ other.actualSlack now ↔ task.latestStart ≤ other.latestStart := by
  simp only [actualSlack, latestStart]
  omega

end QueuedTask

structure WorkerQueue where
  heap : List QueuedTask
  estimatedCompletion : Instant
  deriving DecidableEq

namespace WorkerQueue

def new (now : Instant) : WorkerQueue where
  heap := []
  estimatedCompletion := now

def push (queue : WorkerQueue) (task : QueuedTask) : WorkerQueue where
  heap := task :: queue.heap
  estimatedCompletion := queue.estimatedCompletion + task.estimatedProcessing

/-- `try_pop` may return this result, and leaves this queue. -/
def tryPop (queue : WorkerQueue) : Option QueuedTask → Option WorkerQueue
  | none => if queue.heap = [] then some queue else none
  | some task =>
      if Earliest QueuedTask.slackTime task queue.heap then
        some { queue with heap := queue.heap.erase task }
      else none

def depth (queue : WorkerQueue) : Nat := queue.heap.length

end WorkerQueue

/-! ## One queue in the course of time -/

structure QueueState where
  clock : Instant
  queue : WorkerQueue

inductive QueueAction where
  | tick (elapsed : Duration)
  | push (task : QueuedTask)
  | tryPop (result : Option QueuedTask)

namespace QueueState

def initial (clock : Instant) : QueueState where
  clock
  queue := .new clock

def step (state : QueueState) : QueueAction → Option QueueState
  | .tick elapsed => some { state with clock := state.clock + elapsed }
  | .push task => some { state with queue := state.queue.push task }
  | .tryPop result => (state.queue.tryPop result).map fun queue => { state with queue }

/-- A task popped now has the least slack left of all queued tasks. -/
def ServesLeastSlack (state : QueueState) : QueueAction → Prop
  | .tryPop (some task) => Earliest QueuedTask.slackTime task state.queue.heap →
      ∀ other ∈ state.queue.heap, task.actualSlack state.clock ≤ other.actualSlack state.clock
  | _ => True

/-- A task pushed now is ordered by its stored slack against the queued ones as
by its latest start. -/
def PushAgrees (state : QueueState) : QueueAction → Prop
  | .push task => ∀ other ∈ state.queue.heap,
      Agree QueuedTask.slackTime QueuedTask.latestStart task other
  | _ => True

abbrev Agreeing (state : QueueState) : Prop :=
  AgreeAll QueuedTask.slackTime QueuedTask.latestStart state.queue.heap

theorem Agreeing.serves {state : QueueState} (agreeing : state.Agreeing) (action : QueueAction) :
    state.ServesLeastSlack action := by
  cases action with
  | tryPop result =>
      cases result with
      | none => trivial
      | some task =>
          intro earliest other member
          rw [QueuedTask.actualSlack_le_iff]
          exact earliest.rank_le agreeing other member
  | _ => trivial

theorem tryPop_some {state next : QueueState} {task : QueuedTask}
    (stepped : state.step (.tryPop (some task)) = some next) :
    Earliest QueuedTask.slackTime task state.queue.heap ∧
      next.queue.heap = state.queue.heap.erase task ∧ next.clock = state.clock := by
  simp only [step, WorkerQueue.tryPop] at stepped
  split at stepped
  · rename_i earliest
    cases stepped
    exact ⟨earliest, rfl, rfl⟩
  · cases stepped

theorem step_agreeing {state next : QueueState} {action : QueueAction}
    (agreeing : state.Agreeing) (stepped : state.step action = some next) :
    next.Agreeing ↔ state.PushAgrees action := by
  cases action with
  | tick elapsed =>
      cases stepped
      exact iff_of_true agreeing trivial
  | push task =>
      cases stepped
      constructor
      · intro all other member
        exact all task (List.mem_cons_self) other (List.mem_cons_of_mem _ member)
      · intro head
        exact agreeing.cons head
  | tryPop result =>
      refine iff_of_true ?_ trivial
      cases result with
      | none =>
          simp only [step, WorkerQueue.tryPop] at stepped
          split at stepped
          · cases stepped
            exact agreeing
          · cases stepped
      | some task =>
          rw [Agreeing, (tryPop_some stepped).2.1]
          exact agreeing.erase task

theorem pushAgrees_of_disabled {state : QueueState} {action : QueueAction}
    (disabled : state.step action = none) : state.PushAgrees action := by
  cases action with
  | push task => cases disabled
  | _ => trivial

abbrev popAll (tasks : List QueuedTask) : List QueueAction :=
  tasks.map fun task => .tryPop (some task)

theorem along_popAll {state : QueueState} {tasks : List QueuedTask}
    (pops : Pops QueuedTask.slackTime state.queue.heap tasks) :
    TransitionSystem.Along step ServesLeastSlack state (popAll tasks) ↔
      PopsLeast QueuedTask.latestStart state.queue.heap tasks := by
  induction tasks generalizing state with
  | nil => exact Iff.rfl
  | cons task rest ih =>
      obtain ⟨earliest, later⟩ := pops
      have stepped : state.step (.tryPop (some task)) =
          some { state with queue := { state.queue with heap := state.queue.heap.erase task } } := by
        simp only [step, WorkerQueue.tryPop, if_pos earliest, Option.map_some]
      constructor
      · intro along
        refine ⟨?_, (ih later).mp (along.2 _ stepped)⟩
        intro other member
        exact (QueuedTask.actualSlack_le_iff _ _ _).mp (along.1 earliest other member)
      · intro least
        refine ⟨?_, ?_⟩
        · intro _ other member
          exact (QueuedTask.actualSlack_le_iff _ _ _).mpr (least.1 other member)
        · intro next same
          rw [stepped] at same
          cases same
          exact (ih later).mpr least.2

/-- Emptying the queue, in any order the heap allows, serves least slack first
exactly if the queued tasks agree. -/
theorem along_popAll_iff {state : QueueState} :
    (∀ tasks, TransitionSystem.Along step ServesLeastSlack state (popAll tasks)) ↔
      state.Agreeing := by
  constructor
  · intro along
    rw [Agreeing, ← popsLeast_iff_agreeAll]
    intro tasks pops
    exact (along_popAll pops).mp (along tasks)
  · intro agreeing tasks
    induction tasks generalizing state with
    | nil => trivial
    | cons task rest ih =>
        refine ⟨agreeing.serves _, fun next stepped => ih ?_⟩
        exact (step_agreeing agreeing stepped).mpr trivial

end QueueState

theorem initial_agreeing (clock : Instant) : (QueueState.initial clock).Agreeing :=
  agreeAll_nil _ _

theorem serves_iff_of_agreeing {state : QueueState} (agreeing : state.Agreeing)
    (actions : List QueueAction) :
    (∀ earlier, earlier <+: actions → ∀ tasks,
      TransitionSystem.Along QueueState.step QueueState.ServesLeastSlack state
        (earlier ++ QueueState.popAll tasks)) ↔
      TransitionSystem.Along QueueState.step QueueState.PushAgrees state actions := by
  induction actions generalizing state with
  | nil =>
      refine iff_of_true ?_ trivial
      intro earlier isPrefix tasks
      rw [List.prefix_nil.mp isPrefix]
      exact QueueState.along_popAll_iff.mpr agreeing tasks
  | cons action rest ih =>
      constructor
      · intro along
        have tail (next : QueueState) (stepped : state.step action = some next)
            (earlier : List QueueAction) (isPrefix : earlier <+: rest) (tasks : List QueuedTask) :=
          (along (action :: earlier) (List.cons_prefix_cons.mpr ⟨rfl, isPrefix⟩) tasks).2 next stepped
        cases stepped : state.step action with
        | none => exact ⟨QueueState.pushAgrees_of_disabled stepped, by simp [stepped]⟩
        | some next =>
            have agreeing' : next.Agreeing :=
              QueueState.along_popAll_iff.mp (tail next stepped [] (List.nil_prefix))
            refine ⟨(QueueState.step_agreeing agreeing stepped).mp agreeing', ?_⟩
            intro same stepped'
            rw [stepped] at stepped'
            cases stepped'
            exact (ih agreeing').mp (tail next stepped)
      · intro pushes earlier isPrefix tasks
        cases earlier with
        | nil => exact QueueState.along_popAll_iff.mpr agreeing tasks
        | cons first more =>
            obtain ⟨rfl, shorter⟩ := List.cons_prefix_cons.mp isPrefix
            refine ⟨agreeing.serves first, ?_⟩
            intro next stepped
            have agreeing' := (QueueState.step_agreeing agreeing stepped).mpr pushes.1
            exact (ih agreeing').mpr (pushes.2 next stepped) more shorter tasks

/-- Least slack is served first, in the run and whenever the queue is emptied
after a part of it, exactly if every push of the run agrees with the tasks then
queued. -/
theorem servesLeastSlack_iff_pushes_agree (clock : Instant) (actions : List QueueAction) :
    (∀ earlier, earlier <+: actions → ∀ tasks,
      TransitionSystem.Along QueueState.step QueueState.ServesLeastSlack (.initial clock)
        (earlier ++ QueueState.popAll tasks)) ↔
      TransitionSystem.Along QueueState.step QueueState.PushAgrees (.initial clock) actions :=
  serves_iff_of_agreeing (initial_agreeing clock) actions

/-! ## Two dispatches of equal budgets at different times -/

def earlyPacket : Packet := Packet.fromBuffer 0 0 .low [] (Duration.fromMillis 100)

def latePacket : Packet := Packet.fromBuffer 1 (Duration.fromMillis 80) .low [] (Duration.fromMillis 100)

/-- The task dispatched at 0 has 9.95 ms left at 90 ms, the one dispatched then
has 89.95 ms, but its stored slack is the smaller one. -/
def staleSlackRun : List QueueAction :=
  [.push (.of .low earlyPacket 0), .tick (Duration.fromMillis 90),
    .push (.of .low latePacket (Duration.fromMillis 90)),
    .tryPop (some (.of .low latePacket (Duration.fromMillis 90)))]

theorem stale_slack_served_first :
    ¬ TransitionSystem.Along QueueState.step QueueState.ServesLeastSlack (.initial 0)
      staleSlackRun := by
  intro along
  have served := (((along.2 _ rfl).2 _ rfl).2 _ rfl).1
  have wrong := served (by decide +kernel) (.of .low earlyPacket 0) (by decide +kernel)
  revert wrong
  decide +kernel

end EdfPipeline.Cedf
