import EdfPipeline.MultiWorker.Admission

/-!
# Admission against the limits read

The limits change between two turns of the loop, so a heap may exceed those just
read. It never exceeds the largest ones the worker has read, and the local
counters stay those of the heap.
-/

set_option autoImplicit false

namespace EdfPipeline.MultiWorker

open EarliestFirst
open TransitionSystem (Past recorded observed)

def largest (limits : List Nat) : Nat := limits.foldr max 0

theorem le_largest {limits : List Nat} {limit : Nat} (read : limit ∈ limits) :
    limit ≤ largest limits :=
  List.le_max_of_le' 0 read le_rfl

theorem largest_le_append (limits later : List Nat) : largest limits ≤ largest (limits ++ later) :=
  List.max_le_of_forall_le limits _ fun _ read => le_largest (List.mem_append_left later read)

namespace State

/-- The total limit worker `id` reads at the top of its loop. -/
def totalLimitRead (id : WorkerId) (state : State) : Action → Option Nat
  | .run runner =>
      if runner = id ∧ (state.workers id).pc = .top then some (state.controller.totalLimit id)
      else none
  | _ => none

/-- The quota of one class worker `id` reads after it. -/
def quotaRead (id : WorkerId) (priority : Priority) (state : State) : Action → Option Nat
  | .run runner =>
      match (state.workers id).pc with
      | .readPriorityLimits (first :: _) =>
          if runner = id ∧ first = priority then
            some (state.controller.workerPriorityLimits id priority)
          else none
      | _ => none
  | _ => none

def largestTotalLimit (id : WorkerId) (past : Past State Action) : Nat :=
  largest (observed (totalLimitRead id) past)

def largestQuota (id : WorkerId) (past : Past State Action) : PriorityTable Nat :=
  fun priority => largest (observed (quotaRead id priority) past)

/-- What every worker's admission keeps, over the limits it has read. -/
structure BookkeepingExact (history : State × Past State Action) : Prop where
  counts : ∀ id priority,
    (history.1.workers id).counts priority = (history.1.workers id).heapCount priority
  total : ∀ id, (history.1.workers id).totalCount = (history.1.workers id).heap.length
  /-- The subtractions of STEP 2 do not underflow. -/
  underflow : ∀ id item, (history.1.popWorker id item).isSome →
    0 < (history.1.workers id).counts item.priority ∧ 0 < (history.1.workers id).totalCount
  withinTotal : ∀ id, (history.1.workers id).heap.length ≤ largestTotalLimit id history.2
  withinQuota : ∀ id priority,
    (history.1.workers id).heapCount priority ≤ largestQuota id history.2 priority

end State

namespace Worker

/-- The limits in force and the heap are within `total` and `quota`. -/
structure Within (worker : Worker) (total : Nat) (quota : PriorityTable Nat) : Prop where
  totalLimit : worker.totalLimit ≤ total
  heap : worker.heap.length ≤ total
  perPriorityLimit : ∀ priority, worker.perPriorityLimit priority ≤ quota priority
  heapCount : ∀ priority, worker.heapCount priority ≤ quota priority

theorem initial_within (total : Nat) (quota : PriorityTable Nat) :
    Worker.initial.Within total quota :=
  ⟨Nat.zero_le _, Nat.zero_le _, fun _ => Nat.zero_le _, fun _ => Nat.zero_le _⟩

variable {worker : Worker} {total : Nat} {quota : PriorityTable Nat}

theorem Within.mono (within : worker.Within total quota) {total' : Nat} {quota' : PriorityTable Nat}
    (grown : total ≤ total') (grown' : ∀ priority, quota priority ≤ quota' priority) :
    worker.Within total' quota' where
  totalLimit := within.totalLimit.trans grown
  heap := within.heap.trans grown
  perPriorityLimit priority := (within.perPriorityLimit priority).trans (grown' priority)
  heapCount priority := (within.heapCount priority).trans (grown' priority)

theorem Within.of_same (within : worker.Within total quota) {changed : Worker}
    (totalLimit : changed.totalLimit = worker.totalLimit)
    (limits : changed.perPriorityLimit = worker.perPriorityLimit)
    (heap : changed.heap = worker.heap) : changed.Within total quota where
  totalLimit := totalLimit ▸ within.totalLimit
  heap := heap ▸ within.heap
  perPriorityLimit := limits ▸ within.perPriorityLimit
  heapCount priority := by
    rw [Worker.heapCount, heap]
    exact within.heapCount priority

/-- The push tests the limits in force, which are within the largest ones. -/
theorem Within.pushed (within : worker.Within total quota) (sound : worker.Sound)
    {item : ScheduledItem} (room : ¬ worker.QuotaReached item.priority) :
    (worker.pushed item).Within total quota := by
  obtain ⟨below, short⟩ := not_or.mp room
  refine ⟨within.totalLimit, ?_, within.perPriorityLimit, ?_⟩
  · have size : (worker.pushed item).heap.length = worker.heap.length + 1 := rfl
    have limit := within.totalLimit
    have counted := sound.total
    omega
  · intro priority
    rw [heapCount_pushed]
    by_cases same : item.priority = priority
    · subst same
      have limit := within.perPriorityLimit item.priority
      have counted := sound.counts item.priority
      rw [if_pos rfl]
      omega
    · rw [if_neg same]
      exact within.heapCount priority

theorem Within.popped (within : worker.Within total quota) {item : ScheduledItem}
    (earliest : Earliest ScheduledItem.deadline item worker.heap) :
    (worker.popped item).Within total quota := by
  refine ⟨within.totalLimit, ?_, within.perPriorityLimit, ?_⟩
  · exact (List.length_erase_le ..).trans within.heap
  · intro priority
    have moved := heapCount_popped earliest priority
    have before := within.heapCount priority
    omega

end Worker

namespace State

theorem moves_within {state next : State} {id : WorkerId} {total : Nat} {quota : PriorityTable Nat}
    (sound : state.Sound) (moves : Moves state id next)
    (within : (state.workers id).Within total quota)
    (readTotal : (state.workers id).pc = .top → state.controller.totalLimit id ≤ total)
    (readQuota : ∀ priority rest, (state.workers id).pc = .readPriorityLimits (priority :: rest) →
      state.controller.workerPriorityLimits id priority ≤ quota priority) :
    (next.workers id).Within total quota := by
  cases moves with
  | readTotalLimit place =>
      rw [setWorker_self]
      exact ⟨readTotal place, within.heap, within.perPriorityLimit, within.heapCount⟩
  | readPriorityLimit priority rest place =>
      rw [setWorker_self]
      refine ⟨within.totalLimit, within.heap, ?_, within.heapCount⟩
      exact PriorityTable.forall_set (fun other limit => limit ≤ quota other)
        within.perPriorityLimit (readQuota priority rest place)
  | storeBacklog place =>
      rw [setWorker_self]
      exact within.of_same rfl rfl rfl
  | goto pc slot hand hand' unnumbered unnumbered' =>
      rw [goto_self]
      exact within.of_same rfl rfl rfl
  | spin hand => exact within
  | receive site packet remaining received room slot hand unnumbered =>
      rw [receive, goto_self]
      exact within.of_same rfl rfl rfl
  | prepare site packet ticket place =>
      rw [prepare, goto_self]
      exact within.of_same rfl rfl rfl
  | push site item accepted refused place keeps resumes resumes' =>
      have room := sound.admits place
      have grown := within.pushed (sound.workers id) room
      rw [push_accepted room, setWorker_self]
      exact grown.of_same rfl rfl rfl
  | displace site scheduled item initial next place displaced sited slot hand unnumbered =>
      by_cases full : (state.workers id).QuotaReached scheduled.priority
      · rw [displace_refused full, setWorker_self]
        exact within.of_same rfl rfl rfl
      · have grown := within.pushed (sound.workers id) full
        rw [displace_accepted full, setWorker_self]
        exact grown.of_same rfl rfl rfl
  | observe scheduled start place =>
      rw [goto_self]
      exact within.of_same rfl rfl rfl

/-- The invariant of the run: sound workers within the largest limits they have read. -/
structure KeepsWithin (history : State × Past State Action) : Prop where
  sound : history.1.Sound
  within : ∀ id, (history.1.workers id).Within (largestTotalLimit id history.2)
    (largestQuota id history.2)

theorem KeepsWithin.bookkeepingExact {history : State × Past State Action}
    (keeps : KeepsWithin history) : BookkeepingExact history where
  counts id := (keeps.sound.workers id).counts
  total id := (keeps.sound.workers id).total
  underflow id item enabled := by
    simp only [popWorker] at enabled
    split at enabled
    · rename_i selected
      have queued := selected.2.1
      constructor
      · rw [(keeps.sound.workers id).counts, Worker.heapCount, List.countP_pos_iff]
        exact ⟨item, queued, by simp⟩
      · rw [(keeps.sound.workers id).total]
        exact List.length_pos_of_mem queued
    · cases enabled
  withinTotal id := (keeps.within id).heap
  withinQuota id := (keeps.within id).heapCount

theorem largest_observed_le {observe : State → Action → Option Nat} (past : Past State Action)
    (state : State) (action : Action) :
    largest (observed observe past) ≤ largest (observed observe (past ++ [(state, action)])) := by
  rw [TransitionSystem.observed_append]
  exact largest_le_append _ _

theorem le_largest_observed {observe : State → Action → Option Nat} (past : Past State Action)
    {state : State} {action : Action} {limit : Nat} (reads : observe state action = some limit) :
    limit ≤ largest (observed observe (past ++ [(state, action)])) := by
  rw [TransitionSystem.observed_some reads]
  exact le_largest (List.mem_append_right _ (List.mem_singleton_self limit))

theorem step_keepsWithin {history next : State × Past State Action} {action : Action}
    (keeps : KeepsWithin history) (stepped : recorded State.step history action = some next) :
    KeepsWithin next := by
  obtain ⟨after, later⟩ := next
  obtain ⟨taken, rfl⟩ := TransitionSystem.recorded_eq_some.mp stepped
  refine ⟨step_sound keeps.sound taken, ?_⟩
  intro id
  have before : (history.1.workers id).Within
      (largestTotalLimit id (history.2 ++ [(history.1, action)]))
      (largestQuota id (history.2 ++ [(history.1, action)])) :=
    (keeps.within id).mono (largest_observed_le _ _ _) fun _ => largest_observed_le _ _ _
  cases action with
  | arrive priority packet =>
      cases taken
      exact before
  | disconnect priority =>
      cases taken
      exact before
  | tick elapsed =>
      cases taken
      exact before
  | store store =>
      simp only [step] at taken
      split at taken
      · cases taken
        exact before
      · cases taken
  | run runner =>
      have moves := runWorker_moves taken
      by_cases same : id = runner
      · subst same
        apply moves_within keeps.sound moves before
        · intro top
          exact le_largest_observed _ (if_pos ⟨rfl, top⟩)
        · intro priority rest place
          apply le_largest_observed
          simp [quotaRead, place]
      · rw [moves_others moves same]
        exact before
  | pop runner item =>
      simp only [step, popWorker] at taken
      split at taken
      · rename_i selected
        cases taken
        by_cases same : id = runner
        · subst same
          rw [setWorker_self]
          exact (before.popped selected.2).of_same rfl rfl rfl
        · rw [setWorker_workers, Function.update_of_ne same]
          exact before
      · cases taken
  | complete runner room =>
      simp only [step, completeWorker] at taken
      split at taken
      · cases taken
        by_cases same : id = runner
        · subst same
          rw [goto_self]
          exact before.of_same rfl rfl rfl
        · rw [State.goto, setWorker_workers, Function.update_of_ne same]
          exact before
      · cases taken

end State

theorem admission_keeps_books_within_limits (actions : List Action) :
    TransitionSystem.Throughout (recorded State.step) State.BookkeepingExact (State.initial, [])
      actions := by
  apply TransitionSystem.throughout_invariant State.step_keepsWithin
    State.KeepsWithin.bookkeepingExact
  exact ⟨State.initial_sound, fun _ => Worker.initial_within _ _⟩

end EdfPipeline.MultiWorker
