import EdfPipeline.Cedf.Moves
import EdfPipeline.Outputs
import Mathlib.Tactic.Abel

/-!
# Packets through the C-EDF scheduler

What a step does to the packets of the dispatcher and of the workers. An item is
a packet with the class of the channel it came from; a worker that displaces its
task puts it back in its own heap.
-/

set_option autoImplicit false

namespace EdfPipeline.Cedf

open Ledger TransitionSystem

variable {n : Nat}

def QueuedTask.item (task : QueuedTask) : Priority × Packet := (task.priority, task.packet)

def Job.item (job : Job) : Priority × Packet := (job.finalPriority, job.taskToProcess.packet)

def Job.Aligned (job : Job) : Prop := job.finalPriority = job.taskToProcess.priority

namespace Pc

/-- The task in the worker's hands. -/
def job : Pc → Option Job
  | .popped job | .guard job _ | .guardStart job _ _ | .guardLoop job _ | .guardSlice job _ _
  | .guardSpin job _ _ | .guardPoll job _ _ _ | .guardReceived job _ _ | .guardDisplace job _
  | .guardRecheck job _ | .process job | .busy job _ | .check job _ | .weigh job _ _
  | .poll job _ _ | .received job _ _ _ | .displace job _ _ | .restart job _ | .finish job
  | .complete job _ | .record job _ | .forward job => some job
  | .top | .pop | .returned => none

/-- The packet received to displace that task. -/
def incoming : Pc → Option (Priority × Packet)
  | .guardReceived _ priority packet | .received _ _ priority packet => some (priority, packet)
  | .guardDisplace _ task | .displace _ _ task => some task.item
  | _ => none

/-- Where a task in hand is about to go back to the heap. -/
def displaced : Pc → Option QueuedTask
  | .guardDisplace job _ | .displace job _ _ => some job.taskToProcess
  | _ => none

def items (pc : Pc) : Multiset (Priority × Packet) :=
  ↑(pc.job.map Job.item).toList + ↑pc.incoming.toList

section Hands

variable {job : Job} {processing : Processing} {pc : Pc}

theorem Guarding.job_eq (guarding : pc.Guarding job) : pc.job = some job := by
  cases guarding <;> rfl

theorem Guarding.incoming_eq (guarding : pc.Guarding job) : pc.incoming = none := by
  cases guarding <;> rfl

theorem Processes.job_eq (processes : pc.Processes job processing) : pc.job = some job := by
  cases processes <;> rfl

theorem Processes.incoming_eq (processes : pc.Processes job processing) : pc.incoming = none := by
  cases processes <;> rfl

end Hands

end Pc

def DispatcherPc.items : DispatcherPc → Multiset (Priority × Packet)
  | .completion _ task _ _ | .depth _ task _ _ _ => {task.item}
  | .top | .high _ | .lower _ _ | .returned => 0

def heapItems (heap : List QueuedTask) : Multiset (Priority × Packet) := ↑(heap.map QueuedTask.item)

inductive Place (n : Nat) where
  /-- Between `try_recv` and the push into the queue of the chosen worker. -/
  | dispatcher
  | heap (id : Fin n)
  | hands (id : Fin n)
  | sent (priority : Priority)
  | dropped (priority : Priority)
  deriving DecidableEq

namespace State

def items (state : State n) : Multiset (Priority × Packet) :=
  state.dispatcher.items + ∑ id, heapItems (state.queues id).heap + ∑ id, (state.workers id).items +
    handedItems state.outputQueues

/-- Every packet in the scheduler, with the place it is at. -/
def located (state : State n) : Multiset (Place n × Packet) :=
  entries .dispatcher (state.dispatcher.items.map Prod.snd) +
    ∑ id, entries (.heap id) ((heapItems (state.queues id).heap).map Prod.snd) +
      ∑ id, entries (.hands id) ((state.workers id).items.map Prod.snd) +
        outputEntries .sent .dropped state.outputQueues

theorem located_packets (state : State n) :
    state.located.map Prod.snd = state.items.map Prod.snd := by
  simp only [located, items, Multiset.map_add, map_snd_entries, map_snd_sum,
    map_snd_outputEntries, map_snd_handedItems]

/-- The front of an input channel. -/
def front (state : State n) (priority : Priority) : Option (Priority × Packet) :=
  (state.inputQueues priority).queue.head?.map (Prod.mk priority)

/-- What a step takes from an input channel. -/
def received (state : State n) : Action n → Option (Priority × Packet)
  | .dispatch =>
      match state.dispatcher with
      | .high _ => state.front .high
      | .lower _ (priority :: _) => state.front priority
      | _ => none
  | .run id =>
      match state.workers id with
      | .guardPoll _ _ _ priority | .poll _ _ priority => state.front priority
      | _ => none
  | _ => none

/-- Everything taken from the input channels, by the dispatcher or by a worker. -/
abbrev taken (past : Past (State n) (Action n)) : List Packet :=
  (observed received past).map Prod.snd

theorem front_ok {state : State n} {priority : Priority} {packet : Packet}
    {remaining : Channel Packet}
    (taken : (state.inputQueues priority).tryRecv = .ok (packet, remaining)) :
    state.front priority = some (priority, packet) := by
  rw [front, (Channel.tryRecv_ok taken).1]
  rfl

theorem front_empty {state : State n} {priority : Priority}
    (empty : (state.inputQueues priority).queue = []) : state.front priority = none := by
  rw [front, empty]
  rfl

theorem front_error {state : State n} {priority : Priority} {error : TryRecvError}
    (failed : (state.inputQueues priority).tryRecv = .error error) : state.front priority = none :=
  front_empty (Channel.tryRecv_error failed)

theorem received_run (state : State n) (id : Fin n) :
    state.received (.run id) = (state.workers id).polled.bind state.front := by
  cases place : state.workers id with
  | guardPoll | poll => simp only [received, place, Pc.polled, Option.bind_some]
  | _ => simp only [received, place, Pc.polled, Option.bind_none]

theorem received_none {state : State n} {id : Fin n}
    (empty : ∀ priority ∈ (state.workers id).polled, (state.inputQueues priority).queue = []) :
    state.received (.run id) = none := by
  rw [received_run]
  cases polls : (state.workers id).polled with
  | none => rfl
  | some priority => exact front_empty (empty priority polls)

theorem tryPop_heap {queue left : WorkerQueue} {task : QueuedTask}
    (popped : queue.tryPop (some task) = some left) : queue.heap.Perm (task :: left.heap) := by
  simp only [WorkerQueue.tryPop] at popped
  split at popped
  · rename_i earliest
    cases popped
    exact List.perm_cons_erase earliest.1
  · cases popped

/-- What a step can do to the packets. -/
inductive Flow (state : State n) : Action n → State n → Prop where
  | still {action : Action n} {next : State n} (quiet : state.received action = none)
      (inputs : ∀ priority, (next.inputQueues priority).queue = (state.inputQueues priority).queue)
      (outputs : next.outputQueues = state.outputQueues)
      (dispatcher : next.dispatcher.items = state.dispatcher.items)
      (heaps : ∀ id, (next.queues id).heap = (state.queues id).heap)
      (jobs : ∀ id, (next.workers id).job = (state.workers id).job)
      (incoming : ∀ id, (next.workers id).incoming = (state.workers id).incoming) :
      Flow state action next
  | arrive (packet : Packet) : Flow state (.arrive packet)
      (state.setInput packet.priority ((state.inputQueues packet.priority).send packet))
  | take {priority : Priority} {packet : Packet} {remaining : Channel Packet}
      {dispatcher : DispatcherPc} (sees : state.received .dispatch = some (priority, packet))
      (taken : (state.inputQueues priority).tryRecv = .ok (packet, remaining))
      (idle : state.dispatcher.items = 0) (holds : dispatcher.items = {(priority, packet)}) :
      Flow state .dispatch { state.setInput priority remaining with dispatcher }
  | assign {id : Fin n} {task : QueuedTask} {dispatcher : DispatcherPc}
      (quiet : state.received .dispatch = none) (holds : state.dispatcher.items = {task.item})
      (idle : dispatcher.items = 0) :
      Flow state .dispatch { state.setQueue id ((state.queues id).push task) with dispatcher }
  | pop {id : Fin n} {task : QueuedTask} {queue : WorkerQueue} (place : state.workers id = .pop)
      (popped : (state.queues id).tryPop (some task) = some queue) :
      Flow state (.pop id task) ((state.setQueue id queue).goto id (.popped (.of task)))
  | receive {id : Fin n} {priority : Priority} {packet : Packet} {remaining : Channel Packet} {pc : Pc}
      (sees : state.received (.run id) = some (priority, packet))
      (taken : (state.inputQueues priority).tryRecv = .ok (packet, remaining))
      (same : pc.job = (state.workers id).job) (free : (state.workers id).incoming = none)
      (holds : pc.incoming = some (priority, packet)) :
      Flow state (.run id) ((state.setInput priority remaining).goto id pc)
  | displace {id : Fin n} {job : Job} {task requeued : QueuedTask} {pc : Pc}
      (quiet : state.received (.run id) = none) (running : (state.workers id).job = some job)
      (holds : (state.workers id).incoming = some task.item)
      (item : requeued.item = job.taskToProcess.item) (now : pc.job = some (.of task))
      (free : pc.incoming = none) : Flow state (.run id) (state.requeue id requeued pc)
  | forward {id : Fin n} {job : Job} {room : Bool} (place : state.workers id = .forward job) :
      Flow state (.forward id room) ({ state with
        outputQueues := state.outputQueues.set job.finalPriority
          ((state.outputQueues job.finalPriority).trySend (fun _ => room)
            job.taskToProcess.packet) }.goto id .top)

/-- A worker moves on with what it has in hand. -/
theorem Flow.move {state next : State n} {id : Fin n} {pc : Pc}
    (quiet : state.received (.run id) = none) (inputs : next.inputQueues = state.inputQueues)
    (outputs : next.outputQueues = state.outputQueues)
    (dispatcher : next.dispatcher = state.dispatcher)
    (heaps : ∀ id, (next.queues id).heap = (state.queues id).heap)
    (moved : next.workers = Function.update state.workers id pc)
    (job : pc.job = (state.workers id).job) (incoming : pc.incoming = (state.workers id).incoming) :
    Flow state (.run id) next := by
  refine .still quiet (fun _ => by rw [inputs]) outputs (by rw [dispatcher]) heaps (fun other => ?_)
    fun other => ?_
  · by_cases here : other = id
    · simp [moved, here, job]
    · simp [moved, here]
  · by_cases here : other = id
    · simp [moved, here, incoming]
    · simp [moved, here]

theorem Flow.goto {state : State n} {id : Fin n} {pc : Pc}
    (quiet : state.received (.run id) = none) (job : pc.job = (state.workers id).job)
    (incoming : pc.incoming = (state.workers id).incoming) :
    Flow state (.run id) (state.goto id pc) :=
  .move quiet rfl rfl rfl (fun _ => rfl) rfl job incoming

theorem DispatchMove.flow {state next : State n} (move : DispatchMove state next) :
    Flow state .dispatch next := by
  have goes {dispatcher : DispatcherPc} (quiet : state.received .dispatch = none)
      (same : dispatcher.items = state.dispatcher.items) :
      Flow state .dispatch { state with dispatcher } :=
    .still quiet (fun _ => rfl) rfl same (fun _ => rfl) (fun _ => rfl) fun _ => rfl
  cases move with
  | top place =>
      refine goes (by simp [received, place]) ?_
      rw [place]
      split <;> rfl
  | takeHigh place taken | takeLower place taken =>
      exact .take (by simp [received, place, front_ok taken]) taken (place ▸ rfl) rfl
  | noHigh place failed | skip place failed =>
      exact goes (by simp [received, place, front_error failed]) (place ▸ rfl)
  | lowerDone place | scan place | keep place =>
      exact goes (by simp [received, place]) (place ▸ rfl)
  | @assign now task scan index place scanned chosen =>
      refine .assign (by simp [received, place]) (place ▸ rfl) ?_
      cases task.priority <;> rfl

/-- A worker that is not about to receive, displace or forward keeps what it has in hand. -/
theorem WorkerMove.flow {state next : State n} {id : Fin n} (move : WorkerMove state id next) :
    Flow state (.run id) next := by
  cases move with
  | guard place guarding guarding' empty =>
      subst place
      exact .goto (received_none empty) (guarding'.job_eq.trans guarding.job_eq.symm)
        (guarding'.incoming_eq.trans guarding.incoming_eq.symm)
  | slice place processes processes' empty =>
      subst place
      exact .goto (received_none empty) (processes'.job_eq.trans processes.job_eq.symm)
        (processes'.incoming_eq.trans processes.incoming_eq.symm)
  | guardReceive place taken | receive place taken =>
      have sees := front_ok taken
      exact .receive (by simp [State.received, place, sees]) taken (place ▸ rfl) (place ▸ rfl) rfl
  | guardDisplace place | displace place =>
      have quiet : state.received (.run id) = none := by simp [State.received, place]
      exact .displace quiet (by rw [place]; rfl) (by rw [place]; rfl) rfl rfl rfl
  | complete place =>
      refine .move (by simp [State.received, place]) rfl rfl rfl (fun other => ?_) rfl (place ▸ rfl)
        (place ▸ rfl)
      by_cases here : other = id
      · simp [State.goto, setQueue, here]
      · simp [State.goto, setQueue, here]
  | record place =>
      exact .move (by simp [State.received, place]) rfl rfl rfl (fun _ => rfl) rfl (place ▸ rfl)
        (place ▸ rfl)
  | top place =>
      refine .goto (by simp [State.received, place]) ?_ ?_
      all_goals
        rw [place]
        split <;> rfl
  | idle place | guardReceived place | process place | received place | restart place | done place
  | finish place =>
      exact .goto (by simp [State.received, place]) (place ▸ rfl) (place ▸ rfl)

theorem step_flow {state next : State n} {action : Action n}
    (stepped : state.step action = some next) : Flow state action next := by
  cases step_moves stepped with
  | arrive packet => exact .arrive packet
  | disconnect priority =>
      refine .still rfl ?_ rfl rfl (fun _ => rfl) (fun _ => rfl) fun _ => rfl
      intro other
      by_cases same : other = priority
      · simp [setInput, same]
      · simp [setInput, same]
  | tick | stop =>
      exact .still rfl (fun _ => rfl) rfl rfl (fun _ => rfl) (fun _ => rfl) fun _ => rfl
  | dispatch move => exact move.flow
  | run move => exact move.flow
  | pop place popped => exact .pop place popped
  | forward place => exact .forward place

/-! ## Conservation -/

theorem items_receive {before after : Pc} {priority : Priority} {packet : Packet}
    (same : after.job = before.job) (free : before.incoming = none)
    (holds : after.incoming = some (priority, packet)) :
    after.items = {(priority, packet)} + before.items := by
  simp only [Pc.items, same, free, holds, Option.toList, Multiset.coe_nil, add_zero]
  exact add_comm _ _

theorem items_displace {before after : Pc} {job : Job} {task : QueuedTask}
    (running : before.job = some job) (holds : before.incoming = some task.item)
    (now : after.job = some (.of task)) (free : after.incoming = none) :
    before.items = {job.item} + after.items := by
  simp only [Pc.items, running, holds, now, free, Option.map_some, Option.toList,
    Multiset.coe_singleton, Multiset.coe_nil, add_zero]
  rfl

abbrev AllAligned (state : State n) : Prop := ∀ id, ∀ job ∈ (state.workers id).job, job.Aligned

/-- The items a step takes in are what the scheduler grows by. -/
theorem Flow.items {state next : State n} {action : Action n} (flow : Flow state action next)
    (aligned : state.AllAligned) :
    next.items = (state.received action).elim 0 singleton + state.items := by
  cases flow with
  | still quiet inputs outputs dispatcher heaps jobs incoming =>
      simp only [State.items, Pc.items, quiet, outputs, dispatcher, heaps, jobs, incoming,
        Option.elim_none, zero_add]
  | arrive packet =>
      simp only [received, Option.elim_none, zero_add]
      rfl
  | take sees taken idle holds =>
      simp only [sees, Option.elim_some, State.items, setInput, idle, holds]
      abel
  | assign quiet holds idle =>
      rename_i id task dispatcher
      have grown : heapItems ((state.queues id).push task).heap =
          {task.item} + heapItems (state.queues id).heap := rfl
      have heaps := @sum_update_add _ _ _ _ _ _ (fun queue : WorkerQueue => heapItems queue.heap) _ _
        _ _ grown
      simp only [quiet, Option.elim_none, zero_add, State.items, setQueue, holds, idle, heaps]
  | pop place popped =>
      rename_i id task queue
      have left := tryPop_heap popped
      have shrunk : heapItems (state.queues id).heap = {task.item} + heapItems queue.heap :=
        Multiset.coe_eq_coe.mpr (left.map QueuedTask.item)
      have grown : (Pc.popped (.of task)).items = {task.item} + (state.workers id).items := by
        rw [place]
        rfl
      have heaps := @sum_update_release _ _ _ _ _ _ (fun queue : WorkerQueue => heapItems queue.heap)
        _ _ _ _ shrunk
      simp only [received, Option.elim_none, zero_add, State.items, State.goto, setQueue,
        sum_update_add grown, heaps]
      abel
  | receive sees taken same free holds =>
      rename_i id priority packet remaining pc
      have grown := items_receive same free holds
      simp only [sees, Option.elim_some, State.items, State.goto, setInput, sum_update_add grown]
      abel
  | displace quiet running holds item now free =>
      rename_i id job task requeued pc
      have straight : job.item = requeued.item := by
        rw [item, Job.item, aligned id job running, QueuedTask.item]
      have shrunk := straight ▸ items_displace running holds now free
      have grown : heapItems ((state.queues id).push requeued).heap =
          {requeued.item} + heapItems (state.queues id).heap := rfl
      have heaps := @sum_update_add _ _ _ _ _ _ (fun queue : WorkerQueue => heapItems queue.heap) _ _
        _ _ grown
      simp only [quiet, Option.elim_none, zero_add, State.items, requeue, State.goto, setQueue, heaps,
        sum_update_release shrunk]
      abel
  | forward place =>
      rename_i id job room
      have shrunk : (state.workers id).items = {job.item} + Pc.top.items := by
        rw [place]
        rfl
      have handed := handedItems_trySend state.outputQueues job.finalPriority (fun _ => room)
        job.taskToProcess.packet
      simp only [received, Option.elim_none, zero_add, State.items, State.goto, handed,
        sum_update_release shrunk, Job.item]
      abel

/-- A task in hand is forwarded as what it is. -/
theorem Flow.aligned {state next : State n} {action : Action n} (flow : Flow state action next)
    (aligned : state.AllAligned) : next.AllAligned := by
  have update {pc : Pc} {id : Fin n} (fresh : ∀ job ∈ pc.job, job.Aligned) :
      ∀ other, ∀ job ∈ (Function.update state.workers id pc other).job, job.Aligned :=
    (Function.forall_update_iff state.workers fun _ pc => ∀ job ∈ pc.job, job.Aligned).mpr
      ⟨fresh, fun other _ => aligned other⟩
  cases flow with
  | still quiet inputs outputs dispatcher heaps jobs incoming =>
      simpa only [AllAligned, jobs] using aligned
  | arrive | take | assign => exact aligned
  | pop place popped => exact update fun job made => Option.some.inj made ▸ rfl
  | receive sees taken same free holds => exact update (same ▸ aligned _)
  | displace quiet running holds item now free =>
      refine update ?_
      intro job made
      rw [now] at made
      exact Option.some.inj made ▸ rfl
  | forward place => exact update fun job made => by cases made

theorem Flow.offered {state next : State n} {action : Action n} (flow : Flow state action next)
    (offered : Offered state.inputQueues) : Offered next.inputQueues := by
  cases flow with
  | still quiet inputs outputs dispatcher heaps jobs incoming =>
      simpa only [Offered, inputs] using offered
  | arrive packet => exact offered.send packet
  | take sees taken idle holds => exact offered.receive taken
  | receive sees taken same free holds => exact offered.receive taken
  | assign | pop | displace | forward => exact offered

theorem Flow.counted {state next : State n} {action : Action n} (flow : Flow state action next)
    (counted : ∀ priority, (state.outputQueues priority).Counted) :
    ∀ priority, (next.outputQueues priority).Counted := by
  cases flow with
  | still quiet inputs outputs dispatcher heaps jobs incoming => exact outputs ▸ counted
  | forward place => exact counted_trySend counted _ _ _
  | arrive | take | assign | pop | receive | displace => exact counted

/-- What is received carries the class of the channel it is received from. -/
theorem Flow.received_own {state next : State n} {action : Action n} (flow : Flow state action next)
    (offered : Offered state.inputQueues) {item : Priority × Packet}
    (sees : state.received action = some item) : item.2.priority = item.1 := by
  cases flow with
  | still quiet inputs outputs dispatcher heaps jobs incoming => cases quiet.symm.trans sees
  | take sees' taken idle holds =>
      cases sees'.symm.trans sees
      exact offered.own taken
  | receive sees' taken same free holds =>
      cases sees'.symm.trans sees
      exact offered.own taken
  | assign quiet | displace quiet => cases quiet.symm.trans sees
  | arrive | pop | forward => cases sees

/-- Items are conserved, and are of the class of the channel they came from. -/
structure Kept (history : State n × Past (State n) (Action n)) : Prop where
  conserved : (↑(observed received history.2) : Multiset (Priority × Packet)) = history.1.items
  offered : ∀ priority, ∀ packet ∈ (history.1.inputQueues priority).queue, packet.priority = priority
  own : ∀ item ∈ observed received history.2, item.2.priority = item.1
  aligned : history.1.AllAligned
  counted : ∀ priority, (history.1.outputQueues priority).Counted

theorem initial_kept (n : Nat) : Kept (initial n, []) where
  conserved := by
    simp only [items, initial, handedItems_initial, DispatcherPc.items, Pc.items, Pc.job,
      Pc.incoming, heapItems, WorkerQueue.new, Option.map_none, Option.toList, List.map_nil,
      Multiset.coe_nil, Finset.sum_const_zero, add_zero]
    rfl
  offered := by simp [initial, Channel.empty]
  own := by simp [observed]
  aligned id job made := by cases made
  counted priority := OutputQueue.counted_initial

theorem step_kept {history next : State n × Past (State n) (Action n)} {action : Action n}
    (kept : Kept history) (stepped : recorded step history action = some next) : Kept next := by
  obtain ⟨moved, past⟩ := recorded_eq_some.mp stepped
  have flow := step_flow moved
  refine ⟨?_, flow.offered kept.offered, ?_, flow.aligned kept.aligned, flow.counted kept.counted⟩
  · rw [past, observed_balance, flow.items kept.aligned, kept.conserved]
  · rw [past]
    exact forall_observed kept.own fun _ sees => flow.received_own kept.offered sees

theorem Kept.routed {history : State n × Past (State n) (Action n)} (kept : Kept history) :
    Routed history.1.outputQueues where
  counted := kept.counted
  own priority packet handed := by
    have held : (priority, packet) ∈ history.1.items :=
      Multiset.mem_add.mpr (.inr (mem_handedItems handed))
    rw [← kept.conserved] at held
    exact kept.own (priority, packet) held

/-- What holds in every state: every packet taken from an input channel is at one
place, once, and on the queue of its class when handed over; a task about to be
displaced goes back to the heap of its worker, once. -/
structure Conserving (history : State n × Past (State n) (Action n)) : Prop where
  places : (↑(taken history.2) : Multiset Packet) = history.1.located.map Prod.snd
  routed : Routed history.1.outputQueues
  requeued : ∀ id, ∀ task ∈ (history.1.workers id).displaced, ∀ next,
    history.1.step (.run id) = some next →
      (next.queues id).heap.map QueuedTask.packet =
        task.packet :: (history.1.queues id).heap.map QueuedTask.packet

theorem displaced_requeued {state next : State n} {id : Fin n} {task : QueuedTask}
    (displaced : (state.workers id).displaced = some task)
    (stepped : state.step (.run id) = some next) :
    (next.queues id).heap.map QueuedTask.packet =
      task.packet :: (state.queues id).heap.map QueuedTask.packet := by
  cases place : state.workers id with
  | guardDisplace job incoming | displace job processing incoming =>
      rw [place] at displaced
      cases displaced
      simp only [step, runWorker, place, Option.some.injEq] at stepped
      cases stepped
      simp only [requeue, State.goto, setQueue, WorkerQueue.push, Function.update_self, List.map_cons]
  | _ => simp [place, Pc.displaced] at displaced

theorem Kept.conserving {history : State n × Past (State n) (Action n)} (kept : Kept history) :
    Conserving history where
  places := by
    rw [located_packets, ← kept.conserved, Multiset.map_coe]
  routed := kept.routed
  requeued _ _ displaced _ stepped := displaced_requeued displaced stepped

theorem Conserving.existsUnique_place {history : State n × Past (State n) (Action n)}
    (conserving : Conserving history) (distinct : (taken history.2).Nodup) {packet : Packet}
    (received : packet ∈ taken history.2) : ∃! place, (place, packet) ∈ history.1.located :=
  Ledger.existsUnique_place conserving.places distinct received

end State

/-- In every state of every run of the C-EDF scheduler with any number of
workers, packets are conserved and displaced tasks are put back. -/
theorem conserving_throughout (n : Nat) (actions : List (Action n)) :
    Throughout (recorded State.step) State.Conserving (State.initial n, []) actions :=
  throughout_invariant State.step_kept State.Kept.conserving (State.initial_kept n) actions

/-- A packet for which the dispatcher is still looking for a worker is at no other place. -/
theorem received_before_assignment :
    ¬ ∀ actions : List (Action 1), Throughout (recorded State.step)
      (fun history => (↑(State.taken history.2) : Multiset Packet) =
        (history.1.located.filter fun entry => entry.1 ≠ .dispatcher).map Prod.snd)
      (State.initial 1, []) actions := by
  intro always
  have here := always [.arrive (Packet.fromBuffer 0 0 .high [0] 0), .dispatch, .dispatch]
  revert here
  decide +kernel

end EdfPipeline.Cedf
