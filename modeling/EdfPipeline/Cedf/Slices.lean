import EdfPipeline.Cedf.Conservation

/-!
# Processing in slices

A task is processed in slices: each begins when a worker reads its clock to start
on the task and ends with the last clock reading on it, because the task is
displaced or because it is done. Both instants are noted beside the run, whatever
the worker's own locals say. The time all slices of a task have lasted so far
goes with the task, whichever heap or worker it is in.
-/

set_option autoImplicit false

namespace EdfPipeline.Cedf

open TransitionSystem

variable {n : Nat}

/-- The time the slices have lasted: of each task in the heaps, of the task in
the hands of each worker, and of each packet handed to an output queue; and when
the last slice of each worker has begun. -/
structure WorkDone (n : Nat) where
  heaps : Fin n → List (QueuedTask × Duration)
  hands : Fin n → Duration
  begun : Fin n → Instant
  handed : List (Packet × Duration)

/-- Where the dispatcher is about to put its task. -/
def State.assigning (state : State n) : Option (Fin n × QueuedTask) :=
  match state.dispatcher with
  | .completion _ task scan index =>
      if index < n then none
      else if chosen : scan.bestWorker < n then some (⟨scan.bestWorker, chosen⟩, task) else none
  | _ => none

namespace WorkDone

def initial : WorkDone n where
  heaps := fun _ => []
  hands := fun _ => 0
  begun := fun _ => 0
  handed := []

def push (work : WorkDone n) (id : Fin n) (task : QueuedTask) (processed : Duration) : WorkDone n :=
  { work with heaps := Function.update work.heaps id ((task, processed) :: work.heaps id) }

def pop (work : WorkDone n) (id : Fin n) (task : QueuedTask) : WorkDone n :=
  match (work.heaps id).find? fun entry => entry.1 = task with
  | some entry =>
      { work with
        heaps := Function.update work.heaps id ((work.heaps id).eraseP fun entry => entry.1 = task)
        hands := Function.update work.hands id entry.2 }
  | none => work

/-- A task goes back to the heap and another one is taken in hand. -/
def displace (work : WorkDone n) (id : Fin n) (task : QueuedTask) (processed : Duration) :
    WorkDone n :=
  { work.push id task processed with hands := Function.update work.hands id 0 }

def begin (work : WorkDone n) (id : Fin n) (now : Instant) : WorkDone n :=
  { work with begun := Function.update work.begun id now }

def last (work : WorkDone n) (id : Fin n) (slice : Duration) : WorkDone n :=
  { work with hands := Function.update work.hands id (work.hands id + slice) }

def handOver (work : WorkDone n) (id : Fin n) (packet : Packet) : WorkDone n :=
  { work with handed := work.handed ++ [(packet, work.hands id)] }

def noteRun (work : WorkDone n) (state : State n) (id : Fin n) : WorkDone n :=
  match state.workers id with
  | .process _ | .restart _ _ => work.begin id state.clock
  | .guardDisplace job _ => work.displace id job.taskToProcess (work.hands id)
  | .displace job processing _ =>
      let estimatedProcessing := processing.estimatedRemaining state.clock
      work.displace id { job.taskToProcess with estimatedProcessing }
        (work.hands id + (state.clock - work.begun id))
  | .busy _ processing =>
      if state.clock - processing.start < processing.processingTime then work
      else work.last id (state.clock - work.begun id)
  | _ => work

def note (work : WorkDone n) (state : State n) : Action n → WorkDone n
  | .dispatch => state.assigning.elim work fun entry => work.push entry.1 entry.2 0
  | .run id => work.noteRun state id
  | .pop id task => work.pop id task
  | .forward id _ =>
      (state.workers id).job.elim work fun job => work.handOver id job.taskToProcess.packet
  | _ => work

def after (past : Past (State n) (Action n)) : WorkDone n :=
  past.foldl (fun work entry => work.note entry.1 entry.2) .initial

theorem after_step (past : Past (State n) (Action n)) (state : State n) (action : Action n) :
    after (past ++ [(state, action)]) = (after past).note state action := by
  rw [after, List.foldl_append]
  rfl

end WorkDone

/-- Preemption neither loses nor repeats work. -/
structure KeepsWork (history : State n × Past (State n) (Action n)) : Prop where
  tasks : ∀ id, ((WorkDone.after history.2).heaps id).map Prod.fst = (history.1.queues id).heap
  remaining : ∀ id, ∀ entry ∈ (WorkDone.after history.2).heaps id,
    entry.1.estimatedProcessing = processingDuration entry.1.packet - entry.2
  packets : (↑((WorkDone.after history.2).handed.map Prod.fst) : Multiset Packet) =
    handedAll history.1.outputQueues
  processed : ∀ entry ∈ (WorkDone.after history.2).handed, processingDuration entry.1 ≤ entry.2

/-! ## What is left of a task -/

/-- The estimate is what is left to do after this much processing. -/
def QueuedTask.Remaining (task : QueuedTask) (processed : Duration) : Prop :=
  task.estimatedProcessing = processingDuration task.packet - processed

theorem QueuedTask.of_remaining (priority : Priority) (packet : Packet) (now : Instant) :
    (QueuedTask.of priority packet now).Remaining 0 := rfl

def DispatcherPc.task : DispatcherPc → Option QueuedTask
  | .completion _ task _ _ | .depth _ task _ _ _ => some task
  | _ => none

/-- At each place, what is known of a worker whose task has been processed for
this long in earlier slices and whose last slice began at this instant. -/
def Pc.Accounts (processed : Duration) (begun : Instant) : Pc → Prop
  | .top | .pop | .returned => True
  | .popped job | .guard job _ | .guardStart job _ _ | .guardLoop job _ | .guardSlice job _ _
  | .guardSpin job _ _ | .guardPoll job _ _ _ | .guardReceived job _ _ | .guardRecheck job _
  | .process job | .restart job _ => job.taskToProcess.Remaining processed
  | .guardDisplace job task => job.taskToProcess.Remaining processed ∧ task.Remaining 0
  | .busy job processing | .check job processing | .weigh job processing _
  | .poll job processing _ | .received job processing _ _ =>
      job.taskToProcess.Remaining processed ∧
        processing.processingTime = job.taskToProcess.estimatedProcessing ∧ processing.start = begun
  | .displace job processing task =>
      (job.taskToProcess.Remaining processed ∧
        processing.processingTime = job.taskToProcess.estimatedProcessing ∧
        processing.start = begun) ∧ task.Remaining 0
  | .finish job | .complete job _ | .record job _ | .forward job =>
      processingDuration job.taskToProcess.packet ≤ processed

theorem remaining_after_slice {duration processed estimate slice : Nat}
    (remaining : estimate = duration - processed) :
    estimate - slice = duration - (processed + slice) := by
  omega

theorem done_after_slice {duration processed estimate slice : Nat}
    (remaining : estimate = duration - processed) (enough : ¬ slice < estimate) :
    duration ≤ processed + slice := by
  omega

section Places

variable {state : State n} {id : Fin n} {work : WorkDone n} {job : Job} {processing : Processing}
  {pc : Pc}

theorem Pc.Guarding.accounts_iff (guarding : pc.Guarding job) {processed : Duration}
    {begun : Instant} :
    pc.Accounts processed begun ↔ job.taskToProcess.Remaining processed := by
  cases guarding <;> exact Iff.rfl

theorem Pc.Processes.accounts_iff (processes : pc.Processes job processing) {processed : Duration}
    {begun : Instant} :
    pc.Accounts processed begun ↔ job.taskToProcess.Remaining processed ∧
      processing.processingTime = job.taskToProcess.estimatedProcessing ∧
      processing.start = begun := by
  cases processes <;> exact Iff.rfl

/-- A slice that goes on is not noted yet. -/
theorem Pc.Processes.noteRun (processes : pc.Processes job processing)
    (place : state.workers id = pc)
    (unfinished : pc = .busy job processing →
      state.clock - processing.start < processing.processingTime) :
    work.noteRun state id = work := by
  cases processes with
  | busy => simp only [WorkDone.noteRun, place, if_pos (unfinished rfl)]
  | check | weigh | poll => simp only [WorkDone.noteRun, place]

end Places

/-! ## The work of a run -/

structure Tracks (work : WorkDone n) (state : State n) : Prop where
  tasks : ∀ id, (work.heaps id).map Prod.fst = (state.queues id).heap
  remaining : ∀ id, ∀ entry ∈ work.heaps id, entry.1.Remaining entry.2
  assigned : ∀ task ∈ state.dispatcher.task, task.Remaining 0
  hands : ∀ id, (state.workers id).Accounts (work.hands id) (work.begun id)
  packets : (↑(work.handed.map Prod.fst) : Multiset Packet) = handedAll state.outputQueues
  processed : ∀ entry ∈ work.handed, processingDuration entry.1 ≤ entry.2

namespace Tracks

variable {work : WorkDone n} {state next : State n}

theorem update_hands {id : Fin n} {pc : Pc} {hands : Fin n → Duration} {begun : Fin n → Instant}
    (tracks : Tracks work state) (accounts : pc.Accounts (hands id) (begun id))
    (others : ∀ other, other ≠ id → hands other = work.hands other ∧ begun other = work.begun other)
    (other : Fin n) :
    (Function.update state.workers id pc other).Accounts (hands other) (begun other) := by
  by_cases here : other = id
  · rwa [here, Function.update_self]
  · rw [Function.update_of_ne here, (others other here).1, (others other here).2]
    exact tracks.hands other

/-- A worker moves on. -/
theorem goto {id : Fin n} {pc : Pc} (tracks : Tracks work state)
    (queues : ∀ id, (next.queues id).heap = (state.queues id).heap)
    (dispatcher : next.dispatcher = state.dispatcher) (outputs : next.outputQueues = state.outputQueues)
    (moved : next.workers = Function.update state.workers id pc)
    (accounts : pc.Accounts (work.hands id) (work.begun id)) : Tracks work next where
  tasks other := (tracks.tasks other).trans (queues other).symm
  remaining := tracks.remaining
  assigned := dispatcher ▸ tracks.assigned
  hands := moved ▸ tracks.update_hands accounts fun _ _ => ⟨rfl, rfl⟩
  packets := outputs ▸ tracks.packets
  processed := tracks.processed

theorem push (tracks : Tracks work state) {id : Fin n} {task : QueuedTask} {processed : Duration}
    (remaining : task.Remaining processed) (other : Fin n) :
    ((work.push id task processed).heaps other).map Prod.fst =
        ((state.setQueue id ((state.queues id).push task)).queues other).heap ∧
      ∀ entry ∈ (work.push id task processed).heaps other, entry.1.Remaining entry.2 := by
  simp only [WorkDone.push, State.setQueue]
  by_cases here : other = id
  · subst here
    rw [Function.update_self, Function.update_self]
    refine ⟨congrArg (task :: ·) (tracks.tasks other), ?_⟩
    intro entry member
    rcases List.mem_cons.mp member with rfl | old
    · exact remaining
    · exact tracks.remaining other entry old
  · rw [Function.update_of_ne here, Function.update_of_ne here]
    exact ⟨tracks.tasks other, tracks.remaining other⟩

theorem displace (tracks : Tracks work state) {id : Fin n} {task : QueuedTask} {processed : Duration}
    {pc : Pc} (remaining : task.Remaining processed) (accounts : pc.Accounts 0 (work.begun id)) :
    Tracks (work.displace id task processed) (state.requeue id task pc) where
  tasks other := (tracks.push remaining other).1
  remaining other := (tracks.push remaining other).2
  assigned := tracks.assigned
  hands := by
    refine tracks.update_hands ?_ fun other elsewhere => ⟨Function.update_of_ne elsewhere .., rfl⟩
    simpa only [WorkDone.displace, WorkDone.push, Function.update_self] using accounts
  packets := tracks.packets
  processed := tracks.processed

theorem last (tracks : Tracks work state) {id : Fin n} {slice : Duration} {pc : Pc}
    (accounts : pc.Accounts (work.hands id + slice) (work.begun id)) :
    Tracks (work.last id slice) (state.goto id pc) where
  tasks := tracks.tasks
  remaining := tracks.remaining
  assigned := tracks.assigned
  hands := by
    refine tracks.update_hands ?_ fun other elsewhere => ⟨Function.update_of_ne elsewhere .., rfl⟩
    simpa only [WorkDone.last, Function.update_self] using accounts
  packets := tracks.packets
  processed := tracks.processed

theorem begin {id : Fin n} {now : Instant} {pc : Pc} (tracks : Tracks work state)
    (accounts : pc.Accounts (work.hands id) now) :
    Tracks (work.begin id now) (state.goto id pc) where
  tasks := tracks.tasks
  remaining := tracks.remaining
  assigned := tracks.assigned
  hands := by
    refine tracks.update_hands ?_ fun other elsewhere => ⟨rfl, Function.update_of_ne elsewhere ..⟩
    simpa only [WorkDone.begin, Function.update_self] using accounts
  packets := tracks.packets
  processed := tracks.processed

theorem pop (tracks : Tracks work state) {id : Fin n} {task : QueuedTask} {queue : WorkerQueue}
    (popped : (state.queues id).tryPop (some task) = some queue) :
    Tracks (work.pop id task) ((state.setQueue id queue).goto id (.popped (.of task))) := by
  simp only [WorkerQueue.tryPop] at popped
  split at popped
  · rename_i earliest
    cases popped
    have queued := earliest.1
    rw [← tracks.tasks id] at queued
    obtain ⟨held, member, same⟩ := List.mem_map.mp queued
    cases found : (work.heaps id).find? fun entry => entry.1 = task with
    | none => exact absurd same (by simpa using List.find?_eq_none.mp found held member)
    | some entry =>
        have here : entry.1 = task := by simpa using List.find?_some found
        have known := tracks.remaining id entry (List.mem_of_find?_eq_some found)
        have taken : work.pop id task = { work with
            heaps := Function.update work.heaps id ((work.heaps id).eraseP fun entry => entry.1 = task)
            hands := Function.update work.hands id entry.2 } := by
          rw [WorkDone.pop, found]
        rw [taken]
        refine ⟨?_, ?_, tracks.assigned, ?_, tracks.packets, tracks.processed⟩
        · intro other
          by_cases at_id : other = id
          · subst at_id
            simp only [State.goto, State.setQueue, Function.update_self, List.erase_eq_eraseP',
              ← tracks.tasks, List.eraseP_map]
            rfl
          · simp only [State.goto, State.setQueue, Function.update_of_ne at_id, tracks.tasks]
        · intro other
          by_cases at_id : other = id
          · subst at_id
            simp only [Function.update_self]
            intro left member
            exact tracks.remaining other left (List.mem_of_mem_eraseP member)
          · simp only [Function.update_of_ne at_id]
            exact tracks.remaining other
        · refine tracks.update_hands ?_ fun other elsewhere => ⟨Function.update_of_ne elsewhere .., rfl⟩
          simp only [Function.update_self]
          exact here ▸ known
  · cases popped

theorem move {id : Fin n} {pc : Pc} (tracks : Tracks work state)
    (accounts : pc.Accounts (work.hands id) (work.begun id)) : Tracks work (state.goto id pc) :=
  tracks.goto (fun _ => rfl) rfl rfl rfl accounts

theorem worked {id : Fin n} (tracks : Tracks work state) (move : State.WorkerMove state id next) :
    Tracks (work.noteRun state id) next := by
  have here := tracks.hands id
  cases move with
  | guard place guarding guarding' empty =>
      rw [place, guarding.accounts_iff] at here
      cases guarding with
      | process =>
          simp only [WorkDone.noteRun, place]
          exact tracks.begin (guarding'.accounts_iff.mpr here)
      | _ =>
          simp only [WorkDone.noteRun, place]
          exact tracks.move (guarding'.accounts_iff.mpr here)
  | slice place processes processes' empty unfinished =>
      rw [place, processes.accounts_iff] at here
      rw [processes.noteRun place unfinished]
      exact tracks.move (processes'.accounts_iff.mpr here)
  | guardDisplace place =>
      simp only [place, Pc.Accounts] at here
      simp only [WorkDone.noteRun, place]
      exact tracks.displace here.1 here.2
  | displace place =>
      simp only [place, Pc.Accounts] at here
      obtain ⟨⟨remaining, processingTime, start⟩, fresh⟩ := here
      simp only [WorkDone.noteRun, place]
      refine tracks.displace ?_ fresh
      rw [QueuedTask.Remaining, Processing.estimatedRemaining, processingTime, start]
      exact remaining_after_slice remaining
  | done place finished =>
      simp only [place, Pc.Accounts] at here
      obtain ⟨remaining, processingTime, start⟩ := here
      simp only [WorkDone.noteRun, place, if_neg finished]
      rw [processingTime, start] at finished
      exact tracks.last (done_after_slice remaining finished)
  | guardReceive place taken | receive place taken =>
      simp only [place, Pc.Accounts] at here
      simp only [WorkDone.noteRun, place]
      exact tracks.goto (fun _ => rfl) rfl rfl rfl here
  | guardReceived place =>
      simp only [place, Pc.Accounts] at here
      simp only [WorkDone.noteRun, place]
      exact tracks.move ⟨here, QueuedTask.of_remaining ..⟩
  | received place =>
      simp only [place, Pc.Accounts] at here
      simp only [WorkDone.noteRun, place]
      exact tracks.move ⟨here, QueuedTask.of_remaining ..⟩
  | process place | restart place =>
      simp only [place, Pc.Accounts] at here
      simp only [WorkDone.noteRun, place]
      exact tracks.begin ⟨here, rfl, rfl⟩
  | finish place =>
      simp only [place, Pc.Accounts] at here
      simp only [WorkDone.noteRun, place]
      exact tracks.move here
  | complete place =>
      simp only [place, Pc.Accounts] at here
      simp only [WorkDone.noteRun, place]
      refine tracks.goto ?_ rfl rfl rfl here
      intro other
      by_cases at_id : other = id
      · simp [State.goto, State.setQueue, at_id]
      · simp [State.goto, State.setQueue, at_id]
  | record place =>
      simp only [place, Pc.Accounts] at here
      simp only [WorkDone.noteRun, place]
      exact tracks.goto (fun _ => rfl) rfl rfl rfl here
  | top place =>
      simp only [WorkDone.noteRun, place]
      refine tracks.move ?_
      split <;> trivial
  | idle place empty =>
      simp only [WorkDone.noteRun, place]
      exact tracks.move trivial

/-- The dispatcher moves on. -/
theorem dispatching {dispatcher : DispatcherPc} (tracks : Tracks work state)
    (queues : next.queues = state.queues) (workers : next.workers = state.workers)
    (outputs : next.outputQueues = state.outputQueues) (holds : next.dispatcher = dispatcher)
    (fresh : ∀ task ∈ dispatcher.task, task.Remaining 0) : Tracks work next where
  tasks := queues ▸ tracks.tasks
  remaining := tracks.remaining
  assigned := holds ▸ fresh
  hands := workers ▸ tracks.hands
  packets := outputs ▸ tracks.packets
  processed := tracks.processed

theorem dispatched (tracks : Tracks work state) (move : State.DispatchMove state next) :
    Tracks (work.note state .dispatch) next := by
  have assigned := tracks.assigned
  cases move with
  | top place =>
      simp only [WorkDone.note, State.assigning, place, Option.elim_none]
      refine tracks.dispatching rfl rfl rfl rfl ?_
      split <;> simp [DispatcherPc.task]
  | takeHigh place taken | takeLower place taken =>
      simp only [WorkDone.note, State.assigning, place, Option.elim_none]
      refine tracks.dispatching rfl rfl rfl rfl ?_
      simp [DispatcherPc.task, QueuedTask.of_remaining]
  | noHigh place failed | skip place failed | lowerDone place =>
      simp only [WorkDone.note, State.assigning, place, Option.elim_none]
      exact tracks.dispatching rfl rfl rfl rfl (by simp [DispatcherPc.task])
  | scan place within =>
      rw [place] at assigned
      simp only [WorkDone.note, State.assigning, place, if_pos within, Option.elim_none]
      exact tracks.dispatching rfl rfl rfl rfl assigned
  | keep place within =>
      rw [place] at assigned
      simp only [WorkDone.note, State.assigning, place, Option.elim_none]
      exact tracks.dispatching rfl rfl rfl rfl assigned
  | @assign now task scan index place scanned chosen =>
      rw [place] at assigned
      have fresh : task.Remaining 0 := assigned task rfl
      simp only [WorkDone.note, State.assigning, place, if_neg scanned, dif_pos chosen,
        Option.elim_some]
      have pushed := @push n work state tracks ⟨scan.bestWorker, chosen⟩ task 0 fresh
      refine ⟨fun other => (pushed other).1, fun other => (pushed other).2, ?_, tracks.hands,
        tracks.packets, tracks.processed⟩
      cases task.priority <;> simp [DispatcherPc.after, DispatcherPc.task]

theorem forward (tracks : Tracks work state) {id : Fin n} {job : Job} {room : Bool}
    (place : state.workers id = .forward job) :
    Tracks (work.handOver id job.taskToProcess.packet) ({ state with
      outputQueues := state.outputQueues.set job.finalPriority
        ((state.outputQueues job.finalPriority).trySend (fun _ => room)
          job.taskToProcess.packet) }.goto id .top) where
  tasks := tracks.tasks
  remaining := tracks.remaining
  assigned := tracks.assigned
  hands := by
    have idle : Pc.top.Accounts (work.hands id) (work.begun id) := trivial
    exact tracks.update_hands idle fun _ _ => ⟨rfl, rfl⟩
  packets := by
    simp only [WorkDone.handOver, State.goto, List.map_append, List.map_cons, List.map_nil,
      ← Multiset.coe_add, tracks.packets, handedAll_trySend]
    exact add_comm _ _
  processed := by
    have enough := tracks.hands id
    rw [place] at enough
    intro entry member
    rcases List.mem_append.mp member with earlier | new
    · exact tracks.processed entry earlier
    · exact List.mem_singleton.mp new ▸ enough

theorem step {action : Action n} (tracks : Tracks work state)
    (stepped : state.step action = some next) : Tracks (work.note state action) next := by
  cases State.step_moves stepped with
  | arrive | disconnect | tick | stop =>
      exact tracks.dispatching rfl rfl rfl rfl tracks.assigned
  | dispatch move => exact tracks.dispatched move
  | run move => exact tracks.worked move
  | pop place popped => exact tracks.pop popped
  | forward place =>
      simp only [WorkDone.note, place, Pc.job, Option.elim_some]
      exact tracks.forward place

theorem initial (n : Nat) : Tracks .initial (State.initial n) where
  tasks _ := rfl
  remaining _ _ member := by cases member
  assigned _ held := by cases held
  hands _ := trivial
  packets := handedAll_initial.symm
  processed _ member := by cases member

end Tracks

/-- In every run of the scheduler with any number of workers, a task in a heap
has what is left of its processing duration as its estimate, and every packet
handed over was processed for its processing duration. -/
theorem preemption_keeps_work (n : Nat) (actions : List (Action n)) :
    Throughout (recorded State.step) KeepsWork (State.initial n, []) actions := by
  let invariant (history : State n × Past (State n) (Action n)) : Prop :=
    Tracks (WorkDone.after history.2) history.1
  have preserved {history : State n × Past (State n) (Action n)} {action : Action n}
      {next : State n × Past (State n) (Action n)} (tracks : invariant history)
      (stepped : recorded State.step history action = some next) : invariant next := by
    obtain ⟨after, later⟩ := next
    obtain ⟨moved, rfl⟩ := recorded_eq_some.mp stepped
    change Tracks (WorkDone.after (history.2 ++ [(history.1, action)])) after
    rw [WorkDone.after_step]
    exact tracks.step moved
  have implies {history : State n × Past (State n) (Action n)} (tracks : invariant history) :
      KeepsWork history :=
    ⟨tracks.tasks, tracks.remaining, tracks.packets, tracks.processed⟩
  have start : invariant (State.initial n, []) := Tracks.initial n
  exact throughout_invariant preserved implies start actions

end EdfPipeline.Cedf
