import EdfPipeline.MultiWorker.Fifo

/-!
# The shared backlog counters

Each worker mirrors its heap in one shared counter for each class. A requeue
raises the counter of the class the iteration started with, so the counters are
exact as long as every displaced item has that class and finds room.
-/

set_option autoImplicit false

namespace EdfPipeline.MultiWorker

open EarliestFirst

namespace Worker

/-- Each counter is the number of packets of its class in the heap. -/
def CountersExact (worker : Worker) : Prop :=
  ∀ priority, worker.sharedPriorityCounters priority = worker.heapCount priority

theorem CountersExact.goto {worker : Worker} (counters : worker.CountersExact) (pc : Pc) :
    (worker.goto pc).CountersExact := counters

theorem fetchAdd_counters (worker : Worker) (priority other : Priority) :
    (worker.fetchAdd priority).sharedPriorityCounters other =
      if other = priority then (worker.sharedPriorityCounters priority + 1) % wordBound
      else worker.sharedPriorityCounters other :=
  PriorityTable.set_apply ..

theorem succ_mod_wordBound_ne (count : Nat) : (count + 1) % wordBound ≠ count := by
  intro same
  have below : (count + 1) % wordBound < wordBound := Nat.mod_lt _ (Nat.two_pow_pos 64)
  by_cases last : count + 1 = wordBound
  · rw [last, Nat.mod_self] at same
    rw [← same] at last
    exact absurd last (by decide)
  · rw [Nat.mod_eq_of_lt (by omega)] at same
    exact absurd same (Nat.succ_ne_self count)

/-- A push matched by raising its own class keeps the counters exact. -/
theorem CountersExact.pushed {worker : Worker} (counters : worker.CountersExact) (sound : worker.Sound)
    {item : ScheduledItem} (room : ¬ worker.QuotaReached item.priority) :
    ((worker.pushed item).fetchAdd item.priority).CountersExact := by
  intro other
  have grown : ((worker.pushed item).fetchAdd item.priority).heapCount other =
      worker.heapCount other + if item.priority = other then 1 else 0 :=
    heapCount_pushed worker item other
  have before : (worker.pushed item).sharedPriorityCounters = worker.sharedPriorityCounters := rfl
  rw [fetchAdd_counters, grown, before]
  by_cases same : other = item.priority
  · subst same
    have below : worker.counts item.priority < worker.perPriorityLimit item.priority :=
      Nat.not_le.mp (not_or.mp room).1
    have word := sound.words item.priority
    rw [if_pos rfl, if_pos rfl, counters, ← sound.counts, Nat.mod_eq_of_lt (by omega)]
  · rw [if_neg same, if_neg fun back => same back.symm, counters, Nat.add_zero]

theorem CountersExact.popped {worker : Worker} (counters : worker.CountersExact) (sound : worker.Sound)
    {item : ScheduledItem} (earliest : Earliest ScheduledItem.deadline item worker.heap) :
    0 < worker.sharedPriorityCounters item.priority ∧ (worker.popped item).CountersExact := by
  have here := heapCount_popped earliest item.priority
  rw [if_pos rfl] at here
  have positive : 0 < worker.sharedPriorityCounters item.priority := by
    rw [counters]
    omega
  refine ⟨positive, ?_⟩
  intro other
  have moved := heapCount_popped earliest other
  have lowered : (worker.popped item).sharedPriorityCounters other =
      if other = item.priority then
        (worker.sharedPriorityCounters item.priority + (wordBound - 1)) % wordBound
      else worker.sharedPriorityCounters other :=
    PriorityTable.set_apply ..
  rw [lowered]
  by_cases same : other = item.priority
  · subst same
    have word := sound.shared item.priority
    have wrapped : worker.sharedPriorityCounters item.priority + (wordBound - 1) =
        worker.sharedPriorityCounters item.priority - 1 + wordBound := by omega
    rw [if_pos rfl] at moved ⊢
    rw [wrapped, Nat.add_mod_right, Nat.mod_eq_of_lt (by omega), counters]
    omega
  · rw [if_neg fun back => same back.symm] at moved
    rw [if_neg same, counters]
    omega

/-- A requeue keeps the counters exact exactly if it succeeds and the displaced
item has the class that is raised. -/
theorem requeue_countersExact {worker : Worker} (counters : worker.CountersExact)
    (sound : worker.Sound) (scheduled : ScheduledItem) (initial : Priority) :
    (worker.requeue scheduled initial).2.CountersExact ↔
      scheduled.priority = initial ∧ ¬ worker.QuotaReached scheduled.priority := by
  by_cases full : worker.QuotaReached scheduled.priority
  · refine iff_of_false ?_ (fun room => room.2 full)
    intro raised
    have here := raised initial
    simp only [requeue, pushWithCapacity_eq, full, ↓reduceIte] at here
    rw [fetchAdd_counters, if_pos rfl, counters] at here
    exact succ_mod_wordBound_ne _ here
  · simp only [requeue, pushWithCapacity_eq, full, ↓reduceIte, not_false_eq_true, and_true]
    constructor
    · intro raised
      by_contra different
      have here := raised initial
      have grown : ((worker.pushed scheduled).fetchAdd initial).heapCount initial =
          worker.heapCount initial + if scheduled.priority = initial then 1 else 0 :=
        heapCount_pushed worker scheduled initial
      rw [fetchAdd_counters, if_pos rfl, grown, if_neg different] at here
      have before : (worker.pushed scheduled).sharedPriorityCounters initial =
        worker.heapCount initial := counters initial
      rw [before] at here
      exact succ_mod_wordBound_ne _ here
    · rintro rfl
      exact counters.pushed sound full

end Worker

namespace State

/-- The depth of a class that `autobalance_loop` sums up from the counters. -/
def actualDepth (state : State) (priority : Priority) : Nat :=
  ∑ id, (state.workers id).sharedPriorityCounters priority

structure BacklogExact (state : State) : Prop where
  counters : ∀ id, (state.workers id).CountersExact
  /-- The subtraction of STEP 2 does not underflow. -/
  underflow : ∀ id item, (state.popWorker id item).isSome →
    0 < (state.workers id).sharedPriorityCounters item.priority
  depth : ∀ priority, state.actualDepth priority = ∑ id, (state.workers id).heapCount priority

theorem backlogExact_iff {state : State} (sound : state.Sound) :
    state.BacklogExact ↔ ∀ id, (state.workers id).CountersExact := by
  refine ⟨BacklogExact.counters, fun counters => ⟨counters, ?_, ?_⟩⟩
  · intro id item enabled
    simp only [popWorker] at enabled
    split at enabled
    · rename_i selected
      exact ((counters id).popped (sound.workers id) selected.2).1
    · cases enabled
  · intro priority
    exact Finset.sum_congr rfl fun id _ => counters id priority

/-- A worker that displaces an item displaces one of the class it popped, and
finds quota left for it. -/
def RequeueMatches (state : State) : Action → Prop
  | .run id => ∀ scheduled initial, (state.workers id).displaced = some (scheduled, initial) →
      scheduled.priority = initial ∧
        (state.workers id).counts scheduled.priority <
          (state.workers id).perPriorityLimit scheduled.priority
  | _ => True

theorem requeueMatches_none {state : State} {id : WorkerId}
    (none : (state.workers id).displaced = none) : state.RequeueMatches (.run id) := by
  intro scheduled initial displaced
  rw [none] at displaced
  cases displaced

theorem counters_of_change {state next : State} (counters : ∀ id, (state.workers id).CountersExact)
    {id : WorkerId} {worker : Worker}
    (workers : next.workers = Function.update state.workers id worker) :
    (∀ other, (next.workers other).CountersExact) ↔ worker.CountersExact := by
  rw [workers]
  constructor
  · intro all
    have here := all id
    rwa [Function.update_self] at here
  · intro changed other
    by_cases same : other = id
    · rw [same, Function.update_self]
      exact changed
    · rw [Function.update_of_ne same]
      exact counters other

theorem counters_of_same {state next : State} (counters : ∀ id, (state.workers id).CountersExact)
    {id : WorkerId} {worker : Worker}
    (workers : next.workers = Function.update state.workers id worker)
    (heap : worker.heap = (state.workers id).heap)
    (shared : worker.sharedPriorityCounters = (state.workers id).sharedPriorityCounters) :
    ∀ other, (next.workers other).CountersExact := by
  refine (counters_of_change counters workers).mpr ?_
  intro priority
  rw [shared, Worker.heapCount, heap]
  exact counters id priority

theorem moves_counters {state next : State} {id : WorkerId} (sound : state.Sound)
    (moves : Moves state id next) (counters : ∀ id, (state.workers id).CountersExact) :
    (∀ other, (next.workers other).CountersExact) ↔ state.RequeueMatches (.run id) := by
  cases moves with
  | readTotalLimit place =>
      exact iff_of_true (counters_of_same counters rfl rfl rfl)
        (requeueMatches_none (Worker.displaced_none (by rw [place]; rfl)))
  | readPriorityLimit priority rest place =>
      exact iff_of_true (counters_of_same counters rfl rfl rfl)
        (requeueMatches_none (Worker.displaced_none (by rw [place]; rfl)))
  | storeBacklog place =>
      exact iff_of_true (counters_of_same counters rfl rfl rfl)
        (requeueMatches_none (Worker.displaced_none (by rw [place]; rfl)))
  | goto pc slot hand hand' unnumbered unnumbered' =>
      exact iff_of_true (counters_of_same counters rfl rfl rfl)
        (requeueMatches_none (Worker.displaced_none hand'))
  | spin hand => exact iff_of_true counters (requeueMatches_none (Worker.displaced_none hand))
  | receive site packet remaining received room slot hand unnumbered =>
      exact iff_of_true (counters_of_same counters rfl rfl rfl)
        (requeueMatches_none (Worker.displaced_none hand))
  | prepare site packet ticket place =>
      exact iff_of_true (counters_of_same counters rfl rfl rfl)
        (requeueMatches_none (Worker.displaced_none (by rw [place]; rfl)))
  | push site item accepted refused place keeps resumes resumes' =>
      have room := sound.admits place
      rw [push_accepted room]
      have raised := (counters id).pushed (sound.workers id) room
      exact iff_of_true ((counters_of_change counters rfl).mpr (raised.goto accepted))
        (requeueMatches_none keeps)
  | displace site scheduled item initial next place displaced sited slot hand unnumbered =>
      have requeued := Worker.requeue_countersExact (counters id) (sound.workers id) scheduled initial
      have moved : ∃ worker : Worker, (state.displace id scheduled initial next).workers =
          Function.update state.workers id worker ∧
            (worker.CountersExact ↔
              ((state.workers id).requeue scheduled initial).2.CountersExact) := by
        unfold displace
        split <;> rename_i same <;> exact ⟨_, rfl, by rw [same]; exact Iff.rfl⟩
      obtain ⟨worker, workers, same⟩ := moved
      rw [counters_of_change counters workers, same, requeued,
        (sound.workers id).requeue_room displaced]
      constructor
      · intro room other initial' again
        rw [displaced] at again
        cases again
        exact room
      · intro room
        exact room scheduled initial displaced
  | observe scheduled start place =>
      exact iff_of_true (counters_of_same counters rfl rfl rfl)
        (requeueMatches_none (Worker.displaced_none (by rw [place]; rfl)))

theorem step_counters {state next : State} {action : Action} (sound : state.Sound)
    (stepped : state.step action = some next) (counters : ∀ id, (state.workers id).CountersExact) :
    (∀ other, (next.workers other).CountersExact) ↔ state.RequeueMatches action := by
  cases action with
  | arrive priority packet =>
      cases stepped
      exact iff_of_true counters trivial
  | disconnect priority =>
      cases stepped
      exact iff_of_true counters trivial
  | tick elapsed =>
      cases stepped
      exact iff_of_true counters trivial
  | store store =>
      simp only [step] at stepped
      split at stepped
      · cases stepped
        exact iff_of_true counters trivial
      · cases stepped
  | run id => exact moves_counters sound (runWorker_moves stepped) counters
  | pop id item =>
      simp only [step, popWorker] at stepped
      split at stepped
      · rename_i selected
        cases stepped
        have lowered := ((counters id).popped (sound.workers id) selected.2).2
        exact iff_of_true ((counters_of_change counters rfl).mpr (lowered.goto _)) trivial
      · cases stepped
  | complete id room =>
      simp only [step, completeWorker] at stepped
      split at stepped
      · cases stepped
        exact iff_of_true (counters_of_same counters rfl rfl rfl) trivial
      · cases stepped

theorem requeueMatches_of_disabled {state : State} {action : Action}
    (disabled : state.step action = none) : state.RequeueMatches action := by
  cases action with
  | run id => exact requeueMatches_none (displaced_of_disabled disabled)
  | _ => trivial

theorem initial_backlogExact : State.initial.BacklogExact :=
  (backlogExact_iff initial_sound).mpr fun _ _ => rfl

end State

/-- The counters are exact all along a run exactly if every requeue of the run
succeeds and raises the class of the item it puts back. -/
theorem backlogExact_iff_requeue_matches (actions : List Action) :
    TransitionSystem.Throughout State.step State.BacklogExact State.initial actions ↔
      TransitionSystem.Along State.step State.RequeueMatches State.initial actions := by
  refine TransitionSystem.throughout_iff_along State.step_sound ?_
    State.requeueMatches_of_disabled State.initial_sound State.initial_backlogExact actions
  intro state action next sound holds stepped
  rw [State.backlogExact_iff (State.step_sound sound stepped)]
  exact State.step_counters sound stepped holds.counters

/-! ## A packet that preempts and is preempted

Worker 1 selects a Medium packet. Two High packets arrive before STEP 3, each
with an earlier deadline than the one before. Both requeues raise the Medium
counter, although the second puts a High packet back.
-/

def firstUrgent : Packet :=
  Packet.fromBuffer 1 (Duration.fromMillis 1) .high [] (Duration.fromMicros 1000)

def secondUrgent : Packet :=
  Packet.fromBuffer 2 (Duration.fromMillis 1) .high [] (Duration.fromMicros 500)

def preemptTwice : List Action :=
  [.tick (Duration.fromMillis 1), .arrive .medium (mediumPacket 0)] ++
    List.replicate 12 (.run 1) ++
      [.pop 1 (mediumItem 0), .arrive .high firstUrgent, .arrive .high secondUrgent] ++
        List.replicate 10 (.run 1)

def doublePreemptionRun : List Action :=
  preemptTwice ++ [.tick (Duration.fromMicros 50), .run 1, .complete 1 fun _ => true]

def selectPreempted : List Action :=
  List.replicate 9 (.run 1) ++ [.pop 1
    { deadline := firstUrgent.deadline
      workItem := { priority := .high, sequence := 0, packet := firstUrgent } }]

theorem double_preemption_breaks_counters :
    (¬ ∀ reached, run State.initial doublePreemptionRun = some reached →
      (reached.workers 1).pc = .top → (reached.workers 1).CountersExact) ∧
    (run State.initial (doublePreemptionRun ++ selectPreempted)).map (fun state =>
      (state.workers 1).sharedPriorityCounters .high) = some (wordBound - 1) := by
  have drifted : (run State.initial doublePreemptionRun).map (fun state =>
      ((state.workers 1).pc, (state.workers 1).sharedPriorityCounters .high,
        (state.workers 1).heapCount .high)) = some (.top, 0, 1) := by
    decide +kernel
  refine ⟨?_, by decide +kernel⟩
  intro checkpoints
  obtain ⟨reached, ran, places⟩ := Option.map_eq_some_iff.mp drifted
  simp only [Prod.mk.injEq] at places
  have here := checkpoints reached ran places.1 .high
  rw [places.2.1, places.2.2] at here
  cases here

end EdfPipeline.MultiWorker
