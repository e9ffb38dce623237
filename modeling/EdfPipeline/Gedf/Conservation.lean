import EdfPipeline.Gedf.Moves
import EdfPipeline.Outputs
import Mathlib.Tactic.Abel

/-!
# Packets through the shared run queue

What a step does to the packets in the scheduler, and from it that none is lost
or duplicated and that each pop serves a task with the earliest key.
-/

set_option autoImplicit false

namespace EdfPipeline.Gedf

open EarliestFirst Ledger TransitionSystem

variable {κ : Type} {n : Nat}

inductive Place (n : Nat) where
  /-- Between `try_recv` and the push into the heap. -/
  | dispatcher
  | heap
  | hands (id : Fin n)
  | sent (priority : Priority)
  | dropped (priority : Priority)
  deriving DecidableEq

def packets (tasks : List (QueuedTask κ)) : Multiset Packet := ↑(tasks.map QueuedTask.packet)

namespace State

/-- Every packet in the scheduler, with the place it is at. -/
def located (state : State κ n) : Multiset (Place n × Packet) :=
  entries .dispatcher (packets state.dispatcher.tasks) + entries .heap (packets state.heap) +
    ∑ id, entries (.hands id) (packets (state.workers id).tasks) +
      outputEntries .sent .dropped state.outputQueues

def contents (state : State κ n) : Multiset Packet :=
  packets state.dispatcher.tasks + packets state.heap +
    ∑ id, packets (state.workers id).tasks + handedAll state.outputQueues

theorem located_packets (state : State κ n) : state.located.map Prod.snd = state.contents := by
  simp only [located, contents, Multiset.map_add, map_snd_entries, map_snd_sum_entries,
    map_snd_outputEntries]

/-- What a step takes from an input channel. -/
def received (state : State κ n) : Action κ n → Option (Priority × Packet)
  | .dispatch =>
      match state.dispatcher with
      | .poll (priority :: _) => (state.inputQueues priority).queue.head?.map (Prod.mk priority)
      | _ => none
  | _ => none

/-- Everything the dispatcher has taken from the input channels. -/
abbrev taken (past : Past (State κ n) (Action κ n)) : List Packet :=
  (observed received past).map Prod.snd

variable [LinearOrder κ] {key : Priority → Packet → κ}

/-- What a step can do to the packets. -/
inductive Flow (key : Priority → Packet → κ) (state : State κ n) : Action κ n → State κ n → Prop where
  | still {action : Action κ n} {next : State κ n} (quiet : state.received action = none)
      (inputs : ∀ priority, (next.inputQueues priority).queue = (state.inputQueues priority).queue)
      (outputs : next.outputQueues = state.outputQueues)
      (dispatcher : next.dispatcher.tasks = state.dispatcher.tasks) (heap : next.heap = state.heap)
      (workers : ∀ id, (next.workers id).tasks = (state.workers id).tasks) : Flow key state action next
  | arrive (packet : Packet) : Flow key state (.arrive packet)
      (state.setInput packet.priority ((state.inputQueues packet.priority).send packet))
  | take {priority : Priority} {rest : List Priority} {packet : Packet} {remaining : Channel Packet}
      (place : state.dispatcher = .poll (priority :: rest))
      (received : (state.inputQueues priority).tryRecv = .ok (packet, remaining)) :
      Flow key state .dispatch { state.setInput priority remaining with
        dispatcher := .push (.of key priority packet) rest }
  | push {task : QueuedTask κ} {rest : List Priority} (place : state.dispatcher = .push task rest) :
      Flow key state .dispatch
        { state with heap := task :: state.heap, dispatcher := .notify rest }
  | pop {id : Fin n} {task : QueuedTask κ} (place : state.workers id = .check)
      (greatest : Greatest QueuedTask.cmp task state.heap) :
      Flow key state (.pop id task)
        ({ state with heap := state.heap.erase task }.goto id (.process task))
  | forward {id : Fin n} {task : QueuedTask κ} {room : Bool}
      (place : state.workers id = .forward task) :
      Flow key state (.forward id room) ({ state with
        outputQueues := state.outputQueues.set task.priority
          ((state.outputQueues task.priority).trySend (fun _ => room) task.packet) }.goto id .lock)

/-- A worker moves on with the tasks it had. -/
theorem Flow.goto {state : State κ n} {action : Action κ n} {id : Fin n} {pc : WorkerPc κ}
    (dispatcher : DispatcherPc κ) (quiet : state.received action = none)
    (idle : dispatcher.tasks = state.dispatcher.tasks)
    (same : pc.tasks = (state.workers id).tasks) :
    Flow key state action { state.goto id pc with dispatcher } := by
  refine .still quiet (fun _ => rfl) rfl idle rfl ?_
  intro other
  by_cases here : other = id
  · simp [State.goto, here, same]
  · simp [State.goto, here]

theorem DispatchMove.flow {state next : State κ n} (move : DispatchMove key state next) :
    Flow key state .dispatch next := by
  cases move with
  | top place =>
      refine .still (by simp [received, place]) (fun _ => rfl) rfl ?_ rfl fun _ => rfl
      rw [place]
      split <;> rfl
  | pass place =>
      exact .still (by simp [received, place]) (fun _ => rfl) rfl (place ▸ rfl) rfl fun _ => rfl
  | take place taken => exact .take place taken
  | skip place failed =>
      have empty := Channel.tryRecv_error failed
      exact .still (by simp [received, place, empty]) (fun _ => rfl) rfl (place ▸ rfl) rfl
        fun _ => rfl
  | push place free => exact .push place
  | wakeAll place =>
      refine .still (by simp [received, place]) (fun _ => rfl) rfl (place ▸ rfl) rfl ?_
      intro id
      by_cases asleep : state.workers id = .waiting
      · simp [asleep, WorkerPc.tasks]
      · simp [asleep]

theorem WorkerMove.flow {state next : State κ n} {id : Fin n} (move : WorkerMove state id next) :
    Flow key state (.run id) next := by
  have goes {pc : WorkerPc κ} (same : pc.tasks = (state.workers id).tasks) :
      Flow key state (.run id) (state.goto id pc) := .goto state.dispatcher rfl rfl same
  cases move with
  | load place =>
      refine goes ?_
      rw [place]
      split <;> rfl
  | spin place unfinished => exact .still rfl (fun _ => rfl) rfl rfl rfl fun _ => rfl
  | lock place | check place | wait place | process place | done place => exact goes (place ▸ rfl)

theorem step_flow {state next : State κ n} {action : Action κ n}
    (stepped : state.step key action = some next) : Flow key state action next := by
  cases step_moves stepped with
  | arrive packet => exact .arrive packet
  | disconnect priority =>
      refine .still rfl ?_ rfl rfl rfl fun _ => rfl
      intro other
      by_cases same : other = priority
      · simp [setInput, same]
      · simp [setInput, same]
  | tick | stop => exact .still rfl (fun _ => rfl) rfl rfl rfl fun _ => rfl
  | dispatch move => exact move.flow
  | @notifyOne id rest place asleep => exact .goto (.poll rest) rfl (place ▸ rfl) (asleep ▸ rfl)
  | notifyNobody place awake => exact .still rfl (fun _ => rfl) rfl (place ▸ rfl) rfl fun _ => rfl
  | run move => exact move.flow
  | pop place greatest => exact .pop place greatest
  | wake asleep => exact .goto state.dispatcher rfl rfl (asleep ▸ rfl)
  | forward place => exact .forward place

/-! ## Conservation -/

/-- The packets a step takes in are what the contents grow by. -/
theorem Flow.contents {state next : State κ n} {action : Action κ n}
    (flow : Flow key state action next) :
    next.contents = ((state.received action).map Prod.snd).elim 0 singleton + state.contents := by
  cases flow with
  | still quiet inputs outputs dispatcher heap workers =>
      simp only [State.contents, quiet, outputs, dispatcher, heap, workers, Option.map_none,
        Option.elim_none, zero_add]
  | arrive packet =>
      simp only [received, Option.map_none, Option.elim_none, zero_add]
      rfl
  | take place taken =>
      rename_i priority rest packet remaining
      have first : (state.inputQueues priority).queue.head? = some packet := by
        rw [(Channel.tryRecv_ok taken).1]
        rfl
      simp only [received, place, first, Option.map_some, Option.elim_some]
      change {packet} + packets state.heap + _ + _ =
        {packet} + (packets state.dispatcher.tasks + packets state.heap + _ + _)
      rw [place]
      change _ = {packet} + (0 + packets state.heap + _ + _)
      rw [zero_add, add_assoc, add_assoc, add_assoc]
      rfl
  | push place =>
      rename_i task rest
      have moved : packets (task :: state.heap) = {task.packet} + packets state.heap := rfl
      have held : packets state.dispatcher.tasks = {task.packet} := by
        rw [place]
        rfl
      simp only [received, place, Option.map_none, Option.elim_none, zero_add]
      change 0 + packets (task :: state.heap) + _ + _ =
        packets state.dispatcher.tasks + packets state.heap + _ + _
      rw [zero_add, moved, held]
  | pop place greatest =>
      rename_i id task
      have split : packets state.heap = {task.packet} + packets (state.heap.erase task) :=
        Multiset.coe_eq_coe.mpr ((List.perm_cons_erase greatest.1).map QueuedTask.packet)
      have grown : packets (WorkerPc.process task).tasks =
          {task.packet} + packets (state.workers id).tasks := by
        rw [place]
        rfl
      have workers := @sum_update_add _ _ _ _ _ _ (fun pc : WorkerPc κ => packets pc.tasks) _ _ _ _
        grown
      simp only [received, Option.map_none, Option.elim_none, zero_add, State.contents, State.goto,
        workers, split]
      abel
  | forward place =>
      rename_i id task room
      have held : packets (state.workers id).tasks =
          {task.packet} + packets (WorkerPc.lock : WorkerPc κ).tasks := by
        rw [place]
        rfl
      have workers := @sum_update_release _ _ _ _ _ _ (fun pc : WorkerPc κ => packets pc.tasks) _ _ _ _
        held
      have handed := handedAll_trySend state.outputQueues task.priority (fun _ => room) task.packet
      simp only [received, Option.map_none, Option.elim_none, zero_add, State.contents, State.goto,
        handed, workers]
      abel

/-- The task is somewhere between the input and the output queues. -/
def Holds (state : State κ n) (task : QueuedTask κ) : Prop :=
  task ∈ state.dispatcher.tasks ∨ task ∈ state.heap ∨ ∃ id, task ∈ (state.workers id).tasks

omit [LinearOrder κ] in
theorem holds_goto {state : State κ n} {id : Fin n} {pc : WorkerPc κ} {task : QueuedTask κ}
    (held : (state.goto id pc).Holds task) : state.Holds task ∨ task ∈ pc.tasks := by
  rcases held with dispatched | queued | ⟨other, worked⟩
  · exact .inl (.inl dispatched)
  · exact .inl (.inr (.inl queued))
  · by_cases same : other = id
    · subst same
      simp only [State.goto, Function.update_self] at worked
      exact .inr worked
    · simp only [State.goto, Function.update_of_ne same] at worked
      exact .inl (.inr (.inr ⟨other, worked⟩))

/-- Tasks are made by the dispatcher only. -/
theorem Flow.holds {state next : State κ n} {action : Action κ n} (flow : Flow key state action next)
    {task : QueuedTask κ} (held : next.Holds task) :
    state.Holds task ∨ ∃ priority packet remaining,
      (state.inputQueues priority).tryRecv = .ok (packet, remaining) ∧
        task = .of key priority packet := by
  cases flow with
  | still quiet inputs outputs dispatcher heap workers =>
      simpa only [Holds, dispatcher, heap, workers] using Or.inl held
  | arrive packet => exact .inl held
  | take place taken =>
      rename_i priority rest packet remaining
      rcases held with made | older
      · exact .inr ⟨priority, packet, remaining, taken, List.mem_singleton.mp made⟩
      · exact .inl (.inr older)
  | push place =>
      rename_i pushed rest
      have dispatched : pushed ∈ state.dispatcher.tasks := place ▸ List.mem_singleton.mpr rfl
      rcases held with none | queued | worked
      · cases none
      · rcases List.mem_cons.mp queued with rfl | older
        · exact .inl (.inl dispatched)
        · exact .inl (.inr (.inl older))
      · exact .inl (.inr (.inr worked))
  | pop place greatest =>
      rename_i id popped
      rcases holds_goto held with older | here
      · rcases older with dispatched | queued | worked
        · exact .inl (.inl dispatched)
        · exact .inl (.inr (.inl (List.mem_of_mem_erase queued)))
        · exact .inl (.inr (.inr worked))
      · exact .inl (.inr (.inl (List.mem_singleton.mp here ▸ greatest.1)))
  | forward place =>
      rcases holds_goto held with older | here
      · exact .inl older
      · cases here

/-- Packets are conserved, and their tasks carry their class and their key. -/
structure Kept (key : Priority → Packet → κ) (history : State κ n × Past (State κ n) (Action κ n)) :
    Prop where
  conserved : (↑(taken history.2) : Multiset Packet) = history.1.contents
  offered : ∀ priority, ∀ packet ∈ (history.1.inputQueues priority).queue, packet.priority = priority
  keyed : ∀ task, history.1.Holds task → task = .of key task.packet.priority task.packet
  routed : Routed history.1.outputQueues

omit [LinearOrder κ] in
theorem initial_kept (key : Priority → Packet → κ) : Kept key (State.initial κ n, []) where
  conserved := by
    simp only [contents, initial, handedAll_initial, DispatcherPc.tasks, WorkerPc.tasks, packets,
      List.map_nil, Multiset.coe_nil, Finset.sum_const_zero, add_zero]
    rfl
  offered := by simp [initial, Channel.empty]
  keyed task held := by simp [Holds, initial, DispatcherPc.tasks, WorkerPc.tasks] at held
  routed := initial_routed

theorem Flow.offered {state next : State κ n} {action : Action κ n} (flow : Flow key state action next)
    (offered : Offered state.inputQueues) : Offered next.inputQueues := by
  cases flow with
  | still quiet inputs outputs dispatcher heap workers =>
      simpa only [Offered, inputs] using offered
  | arrive packet => exact offered.send packet
  | take place taken => exact offered.receive taken
  | push | pop | forward => exact offered

theorem Flow.routed {state next : State κ n} {action : Action κ n} (flow : Flow key state action next)
    (keyed : ∀ task, state.Holds task → task = .of key task.packet.priority task.packet)
    (routed : Routed state.outputQueues) : Routed next.outputQueues := by
  cases flow with
  | still quiet inputs outputs dispatcher heap workers => exact outputs ▸ routed
  | forward place =>
      rename_i id task room
      have held : state.Holds task := .inr (.inr ⟨id, place ▸ List.mem_singleton.mpr rfl⟩)
      exact routed.trySend (congrArg QueuedTask.priority (keyed task held)).symm _
  | arrive | take | push | pop => exact routed

theorem step_kept {history next : State κ n × Past (State κ n) (Action κ n)} {action : Action κ n}
    (kept : Kept key history) (stepped : recorded (State.step key) history action = some next) :
    Kept key next := by
  obtain ⟨moved, past⟩ := recorded_eq_some.mp stepped
  have flow := step_flow moved
  refine ⟨?_, flow.offered kept.offered, ?_, ?_⟩
  · rw [flow.contents, ← kept.conserved, past, taken, observed_append, List.map_append,
      ← Multiset.coe_add, add_comm]
    cases history.1.received action <;> rfl
  · intro task held
    rcases flow.holds held with older | ⟨priority, packet, remaining, taken, rfl⟩
    · exact kept.keyed task older
    · simp only [QueuedTask.of, Offered.own kept.offered taken]
  · exact flow.routed kept.keyed kept.routed

/-- What holds in every state: the next pop serves an earliest task, and every
packet taken from an input channel is at one place, once, and on the queue of
its class when handed over. -/
structure GlobalEdf (key : Priority → Packet → κ)
    (history : State κ n × Past (State κ n) (Action κ n)) : Prop where
  earliest : ∀ id task next, history.1.step key (.pop id task) = some next → ∀ other ∈ next.heap,
    key task.packet.priority task.packet ≤ key other.packet.priority other.packet
  places : (↑(taken history.2) : Multiset Packet) = history.1.located.map Prod.snd
  routed : Routed history.1.outputQueues

theorem Kept.globalEdf {history : State κ n × Past (State κ n) (Action κ n)}
    (kept : Kept key history) : GlobalEdf key history where
  earliest := by
    intro id task next stepped other member
    simp only [step, popWorker] at stepped
    split at stepped
    · rename_i enabled
      cases stepped
      have earliest := (greatest_iff_earliest QueuedTask.key _ _).mp enabled.2
      have queued := List.mem_of_mem_erase member
      have first := earliest.2 other queued
      rw [kept.keyed task (.inr (.inl earliest.1)), kept.keyed other (.inr (.inl queued))] at first
      exact first
    · cases stepped
  places := kept.conserved.trans (located_packets history.1).symm
  routed := kept.routed

theorem GlobalEdf.existsUnique_place {history : State κ n × Past (State κ n) (Action κ n)}
    (globalEdf : GlobalEdf key history) (distinct : (taken history.2).Nodup) {packet : Packet}
    (received : packet ∈ taken history.2) : ∃! place, (place, packet) ∈ history.1.located :=
  Ledger.existsUnique_place globalEdf.places distinct received

end State

/-- In every state of every run of the G-EDF scheduler with any number of workers,
pops are earliest deadline first and packets are conserved. -/
theorem globalEdf_throughout (n : Nat) (actions : List (Action Instant n)) :
    Throughout (recorded (State.step deadline)) (State.GlobalEdf deadline)
      (State.initial Instant n, []) actions :=
  throughout_invariant State.step_kept State.Kept.globalEdf (State.initial_kept deadline) actions

/-- A packet the dispatcher has received and not pushed yet is at no other place. -/
theorem received_before_push :
    ¬ ∀ actions : List (Action Instant 1), Throughout (recorded (State.step deadline))
      (fun history => (↑(State.taken history.2) : Multiset Packet) =
        (history.1.located.filter fun entry => entry.1 ≠ .dispatcher).map Prod.snd)
      (State.initial Instant 1, []) actions := by
  intro always
  have here := always [.arrive (Packet.fromBuffer 0 0 .high [0] 0), .dispatch, .dispatch]
  revert here
  decide +kernel

end EdfPipeline.Gedf
