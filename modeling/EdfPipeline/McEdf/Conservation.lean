import EdfPipeline.McEdf.ClassPreservation
import EdfPipeline.Outputs
import Mathlib.Tactic.Abel

/-!
# Packets through MC-EDF

Every packet the dispatcher takes in stays in one of the stages until it is sent
or dropped. A task put back when a High task arrives during the wait is the one
the worker then no longer has in hand.
-/

set_option autoImplicit false

namespace EdfPipeline.McEdf

open Ledger TransitionSystem

instance : Fintype EdfChannel where
  elems := ⟨EdfChannel.all, by decide⟩
  complete channel := by cases channel <;> decide

def taskPackets (tasks : List EDFTask) : Multiset Packet := ↑(tasks.map EDFTask.packet)

theorem taskPackets_perm {tasks others : List EDFTask} (same : tasks.Perm others) :
    taskPackets tasks = taskPackets others :=
  Multiset.coe_eq_coe.mpr (same.map EDFTask.packet)

theorem taskPackets_append (tasks others : List EDFTask) :
    taskPackets (tasks ++ others) = taskPackets tasks + taskPackets others := by
  rw [taskPackets, List.map_append, ← Multiset.coe_add]
  rfl

/-- The tasks of the FIFO queue and of the heap. -/
def EdfWorker.queued (worker : EdfWorker) : List EDFTask := worker.highQueue.getD [] ++ worker.heap

namespace DispatcherPc

/-- The batch of High packets, with or without their channels. -/
def batch : DispatcherPc → List EDFTask
  | .collect _ highBatch | .assign highBatch => highBatch.map Batched.task
  | .send channels | .recordDistribution _ _ channels => channels.map fun entry => entry.2.task
  | _ => []

/-- A packet of another class, between `try_recv` and the send. -/
def single : DispatcherPc → List EDFTask
  | .deliver task => [task]
  | _ => []

def packets (dispatcher : DispatcherPc) : Multiset Packet :=
  taskPackets dispatcher.batch + taskPackets dispatcher.single

end DispatcherPc

namespace Reorder

def buffered (buffer : Option OrderedPacket) : Multiset Packet :=
  ↑(buffer.map OrderedPacket.packet).toList

/-- A packet taken out of its buffer and not handed over yet. -/
def merging : ReorderPc → Multiset Packet
  | .forward ordered => {ordered.packet}
  | _ => 0

def packets (reorder : Reorder) : Multiset Packet :=
  ∑ channel, buffered (reorder.buffers channel) + merging reorder.pc

theorem goto_packets {reorder : Reorder} {pc : ReorderPc}
    (same : merging pc = merging reorder.pc) : { reorder with pc }.packets = reorder.packets := by
  simp only [packets, same]

end Reorder

inductive Place where
  | batch
  | dispatcher
  | edfInput (channel : EdfChannel) (priority : Priority)
  | queued (channel : EdfChannel)
  | hands (channel : EdfChannel)
  | edfOutput (channel : EdfChannel)
  | buffer (channel : EdfChannel)
  | merging
  | sent (priority : Priority)
  | dropped (priority : Priority)
  deriving DecidableEq

namespace State

def inputPackets (edfInputs : EdfChannel → PriorityTable (Channel EDFTask)) : Multiset Packet :=
  ∑ channel, ∑ priority, taskPackets (edfInputs channel priority).queue

def workerPackets (workers : EdfChannel → EdfWorker) : Multiset Packet :=
  ∑ channel, taskPackets (workers channel).tasks

def outputPackets (edfOutputs : EdfChannel → Channel Packet) : Multiset Packet :=
  ∑ channel, ↑(edfOutputs channel).queue

def contents (state : State) : Multiset Packet :=
  state.dispatcher.packets + inputPackets state.edfInputs + workerPackets state.workers +
    outputPackets state.edfOutputs + state.reorder.packets + handedAll state.outputQueues

/-- Every packet in the scheduler, with the place it is at. -/
def located (state : State) : Multiset (Place × Packet) :=
  (entries Place.batch (taskPackets state.dispatcher.batch) +
      entries Place.dispatcher (taskPackets state.dispatcher.single)) +
    (∑ channel, ∑ priority,
      entries (Place.edfInput channel priority) (taskPackets (state.edfInputs channel priority).queue)) +
    ((∑ channel, entries (Place.queued channel) (taskPackets (state.workers channel).queued)) +
      ∑ channel, entries (Place.hands channel) (taskPackets (state.workers channel).pc.held)) +
    (∑ channel, entries (Place.edfOutput channel) ↑(state.edfOutputs channel).queue) +
    ((∑ channel, entries (Place.buffer channel) (Reorder.buffered (state.reorder.buffers channel))) +
      entries Place.merging (Reorder.merging state.reorder.pc)) +
    outputEntries .sent .dropped state.outputQueues

theorem located_packets (state : State) : state.located.map Prod.snd = state.contents := by
  have worked : workerPackets state.workers =
      ∑ channel, taskPackets (state.workers channel).queued +
        ∑ channel, taskPackets (state.workers channel).pc.held := by
    rw [← Finset.sum_add_distrib]
    exact Finset.sum_congr rfl fun channel _ => taskPackets_append _ _
  simp only [located, contents, Multiset.map_add, map_snd_entries, map_snd_sum,
    map_snd_outputEntries, worked]
  rfl

/-- What a step takes from an input channel. -/
def received (state : State) : Action → Option Packet
  | .dispatch =>
      match state.dispatcher with
      | .collect _ highBatch =>
          if highBatch.length < batchLimit then (state.inputQueues .high).queue.head? else none
      | .receive priority => (state.inputQueues priority).queue.head?
      | _ => none
  | _ => none

/-! ## One component at a time -/

theorem inputPackets_send (state : State) (channel : EdfChannel) (priority : Priority)
    (task : EDFTask) :
    inputPackets (state.sendTask channel priority task).edfInputs =
      {task.packet} + inputPackets state.edfInputs := by
  have grown : taskPackets ((state.edfInputs channel priority).send task).queue =
      {task.packet} + taskPackets (state.edfInputs channel priority).queue := by
    rw [Channel.send, taskPackets_append, add_comm]
    rfl
  have row := @sum_update_add _ _ _ _ _ _ (fun input : Channel EDFTask => taskPackets input.queue) _
    _ _ _ grown
  exact @sum_update_add _ _ _ _ _ _ (fun inputs : PriorityTable (Channel EDFTask) =>
    ∑ priority, taskPackets (inputs priority).queue) _ _ _ _ row

theorem inputPackets_receive {state : State} {channel : EdfChannel} {priority : Priority}
    {task : EDFTask} {remaining : Channel EDFTask}
    (received : (state.edfInputs channel priority).queue = task :: remaining.queue) :
    inputPackets state.edfInputs =
      {task.packet} + inputPackets (state.setEdfInput channel priority remaining).edfInputs := by
  have shrunk : taskPackets (state.edfInputs channel priority).queue =
      {task.packet} + taskPackets remaining.queue := by
    rw [received]
    rfl
  have row := @sum_update_release _ _ _ _ _ _ (fun input : Channel EDFTask => taskPackets input.queue)
    _ _ _ _ shrunk
  exact @sum_update_release _ _ _ _ _ _ (fun inputs : PriorityTable (Channel EDFTask) =>
    ∑ priority, taskPackets (inputs priority).queue) _ _ _ _ row

theorem WorkerMove.contents {state next : State} {channel : EdfChannel}
    (move : WorkerMove state channel next) : next.contents = state.contents := by
  cases move with
  | keep same =>
      have workers := @sum_update_of_eq _ _ _ _ _ _ (fun worker : EdfWorker => taskPackets worker.tasks)
        _ _ _ (taskPackets_perm same)
      simp only [State.contents, setWorker, workerPackets, workers]
  | gain received gained =>
      rename_i worker priority task remaining
      have grown : taskPackets worker.tasks =
          {task.packet} + taskPackets (state.workers channel).tasks := taskPackets_perm gained
      have workers := @sum_update_add _ _ _ _ _ _ (fun worker : EdfWorker => taskPackets worker.tasks) _
        _ _ _ grown
      have inputs := inputPackets_receive received
      simp only [setEdfInput] at inputs
      simp only [State.contents, setWorker, setEdfInput, workerPackets, workers, inputs]
      abel
  | output released =>
      rename_i worker task
      have shrunk : taskPackets (state.workers channel).tasks =
          {task.packet} + taskPackets worker.tasks := taskPackets_perm released
      have workers := @sum_update_release _ _ _ _ _ _
        (fun worker : EdfWorker => taskPackets worker.tasks) _ _ _ _ shrunk
      have sent : (↑((state.edfOutputs channel).send task.packet).queue : Multiset Packet) =
          {task.packet} + ↑(state.edfOutputs channel).queue := by
        rw [Channel.send, ← Multiset.coe_add, add_comm]
        rfl
      have outputs := @sum_update_add _ _ _ _ _ _
        (fun output : Channel Packet => (↑output.queue : Multiset Packet)) _ _ _ _ sent
      simp only [State.contents, setWorker, setEdfOutput, workerPackets, outputPackets, workers,
        outputs]
      abel

/-! ## The dispatcher and the re-ordering stage -/

/-- A packet is taken in by the dispatcher. -/
theorem contents_take {state : State} {priority : Priority} {packet : Packet}
    {remaining : Channel Packet} {dispatcher : DispatcherPc}
    (grown : dispatcher.packets = {packet} + state.dispatcher.packets) :
    { state.setInput priority remaining with dispatcher }.contents = {packet} + state.contents := by
  simp only [contents, setInput, grown]
  abel

/-- The dispatcher sends a task to an EDF. -/
theorem contents_send {state : State} {channel : EdfChannel} {priority : Priority} {task : EDFTask}
    {dispatcher : DispatcherPc}
    (shrunk : state.dispatcher.packets = {task.packet} + dispatcher.packets) :
    { state.sendTask channel priority task with dispatcher }.contents = state.contents := by
  have inputs := inputPackets_send state channel priority task
  simp only [sendTask, setEdfInput] at inputs
  simp only [contents, sendTask, setEdfInput, inputs, shrunk]
  abel

theorem contents_move {state : State} {dispatcher : DispatcherPc}
    (same : dispatcher.packets = state.dispatcher.packets) :
    { state with dispatcher }.contents = state.contents := by
  simp only [contents, same]

theorem after_packets (priority : Priority) : (DispatcherPc.after priority).packets = 0 := by
  cases priority <;> rfl

theorem DispatchMove.contents {state next : State} (move : DispatchMove state next) :
    next.contents = (state.received .dispatch).elim 0 singleton + state.contents := by
  cases move with
  | top place =>
      simp only [received, place, Option.elim_none, zero_add]
      refine contents_move ?_
      rw [place]
      split <;> rfl
  | collect place room front =>
      rename_i now highBatch packet remaining
      simp only [received, place, if_pos room, front, List.head?_cons, Option.elim_some]
      refine contents_take ?_
      rw [place]
      simp only [DispatcherPc.packets, DispatcherPc.batch, DispatcherPc.single, List.map_append,
        taskPackets_append]
      rw [add_comm (taskPackets (highBatch.map _)), add_assoc]
      rfl
  | collected place ends =>
      rename_i now highBatch
      have leave : (if highBatch = [] then DispatcherPc.after .high else .assign highBatch).packets =
          state.dispatcher.packets := by
        rw [place]
        split
        · rename_i empty
          rw [after_packets, empty]
          rfl
        · rfl
      have nothing : state.received .dispatch = none := by
        simp only [received, place]
        split
        · rename_i room
          rw [ends room, List.head?_nil]
        · rfl
      rw [nothing, Option.elim_none, zero_add]
      exact contents_move leave
  | assign place =>
      simp only [received, place, Option.elim_none, zero_add]
      refine contents_move ?_
      rw [place]
      simp only [DispatcherPc.packets, DispatcherPc.batch, DispatcherPc.single, List.map_map]
      rfl
  | send place =>
      simp only [received, place, Option.elim_none, zero_add]
      refine contents_send ?_
      rw [place]
      rfl
  | sent place =>
      simp only [received, place, Option.elim_none, zero_add]
      exact contents_move (place ▸ after_packets _)
  | record place =>
      simp only [received, place, Option.elim_none, zero_add, State.contents]
      rfl
  | receive place front =>
      simp only [received, place, front, List.head?_cons, Option.elim_some]
      exact contents_take (by rw [place]; rfl)
  | skip place empty =>
      simp only [received, place, empty, List.head?_nil, Option.elim_none, zero_add]
      exact contents_move (place ▸ after_packets _)
  | deliver place =>
      simp only [received, place, Option.elim_none, zero_add]
      refine contents_send ?_
      rw [place, after_packets]
      rfl

theorem contents_reorder {state : State} {reorder : Reorder}
    (same : reorder.packets = state.reorder.packets) :
    { state with reorder }.contents = state.contents := by
  simp only [contents, same]

theorem ReorderMove.contents {state next : State} {action : Action}
    (move : ReorderMove state action next) : next.contents = state.contents := by
  cases move with
  | begin place | quit place | skip place | filled place =>
      exact contents_reorder (Reorder.goto_packets (place ▸ rfl))
  | take place empty front =>
      rename_i channel rest packet remaining
      have shrunk : (↑(state.edfOutputs channel).queue : Multiset Packet) =
          {packet} + ↑remaining.queue := by
        rw [front]
        rfl
      have grown : Reorder.buffered (some (.of channel packet)) =
          {packet} + Reorder.buffered (state.reorder.buffers channel) := by
        rw [empty]
        rfl
      have outputs := @sum_update_release _ _ _ _ _ _
        (fun output : Channel Packet => (↑output.queue : Multiset Packet)) _ _ _ _ shrunk
      have buffers := @sum_update_add _ _ _ _ _ _ Reorder.buffered _ _ _ _ grown
      simp only [State.contents, setEdfOutput, outputPackets, outputs, Reorder.packets, buffers, place,
        Reorder.merging]
      abel
  | idle place empty => exact contents_reorder (Reorder.goto_packets (place ▸ rfl))
  | select place held least =>
      rename_i channel ordered
      have released : Reorder.buffered (state.reorder.buffers channel) =
          {ordered.packet} + Reorder.buffered none := by
        rw [held]
        rfl
      have buffers := @sum_update_release _ _ _ _ _ _ Reorder.buffered _ _ _ _ released
      refine contents_reorder ?_
      simp only [Reorder.packets, buffers, place, Reorder.merging]
      abel
  | forward place =>
      rename_i ordered room
      have handed := handedAll_trySend state.outputQueues ordered.priority (fun _ => room) ordered.packet
      simp only [State.contents, handed, Reorder.packets, place, Reorder.merging]
      abel

theorem step_contents {state next : State} {action : Action}
    (stepped : state.step action = some next) :
    next.contents = (state.received action).elim 0 singleton + state.contents := by
  cases action with
  | arrive packet =>
      simp only [step] at stepped
      split at stepped
      · cases stepped
      · cases stepped
        exact (zero_add _).symm
  | disconnect priority | tick elapsed | stop =>
      cases stepped
      exact (zero_add _).symm
  | dispatch => exact (dispatch_moves stepped).contents
  | run channel => exact (runWorker_move stepped).contents.trans (zero_add _).symm
  | pop channel task => exact (popWorker_move stepped).contents.trans (zero_add _).symm
  | await channel timeout => exact (awaitWorker_move stepped).contents.trans (zero_add _).symm
  | reorder => exact (runReorder_moves stepped).contents.trans (zero_add _).symm
  | forward room => exact (forwardReorder_moves stepped).contents.trans (zero_add _).symm

theorem step_counted {state next : State} {action : Action}
    (counted : ∀ priority, (state.outputQueues priority).Counted)
    (stepped : state.step action = some next) : ∀ priority, (next.outputQueues priority).Counted := by
  cases action with
  | arrive packet =>
      simp only [step] at stepped
      split at stepped
      · cases stepped
      · cases stepped
        exact counted
  | disconnect priority | tick elapsed | stop =>
      cases stepped
      exact counted
  | dispatch =>
      obtain ⟨_, _, _, _, rfl⟩ := (dispatch_moves stepped).frame
      exact counted
  | run channel => exact (runWorker_move stepped).frame.1 ▸ counted
  | pop channel task => exact (popWorker_move stepped).frame.1 ▸ counted
  | await channel timeout => exact (awaitWorker_move stepped).frame.1 ▸ counted
  | reorder => cases runReorder_moves stepped <;> exact counted
  | forward room =>
      simp only [step, forwardReorder] at stepped
      split at stepped
      · cases stepped
        exact counted_trySend counted _ _ _
      · cases stepped

structure Kept (history : State × Past State Action) : Prop where
  conserved : (↑(observed received history.2) : Multiset Packet) = history.1.contents
  counted : ∀ priority, (history.1.outputQueues priority).Counted

theorem initial_kept : Kept (initial, []) where
  conserved := by decide
  counted priority := OutputQueue.counted_initial

theorem step_kept {history next : State × Past State Action} {action : Action}
    (kept : Kept history) (stepped : recorded step history action = some next) : Kept next := by
  obtain ⟨moved, past⟩ := recorded_eq_some.mp stepped
  refine ⟨?_, step_counted kept.counted moved⟩
  rw [past, observed_balance, step_contents moved, kept.conserved]

/-- Every packet taken from an input channel is at one place, once, and drops are
counted once. -/
structure Lossless (history : State × Past State Action) : Prop where
  places : (↑(observed received history.2) : Multiset Packet) = history.1.located.map Prod.snd
  counted : ∀ priority, (history.1.outputQueues priority).Counted

theorem Kept.lossless {history : State × Past State Action} (kept : Kept history) :
    Lossless history :=
  ⟨kept.conserved.trans (located_packets history.1).symm, kept.counted⟩

theorem Lossless.existsUnique_place {history : State × Past State Action}
    (lossless : Lossless history) (distinct : (observed received history.2).Nodup) {packet : Packet}
    (taken : packet ∈ observed received history.2) :
    ∃! place, (place, packet) ∈ history.1.located :=
  Ledger.existsUnique_place lossless.places distinct taken

end State

/-- In every state of every run of the MC-EDF scheduler no packet is lost or duplicated. -/
theorem lossless_throughout (actions : List Action) :
    Throughout (recorded State.step) State.Lossless (State.initial, []) actions :=
  throughout_invariant State.step_kept State.Kept.lossless State.initial_kept actions

/-- The places other than the hands of the dispatcher and of the re-ordering stage. -/
def Place.listed : Place → Bool
  | .dispatcher | .merging => false
  | _ => true

/-- A Medium packet received and not sent to its EDF yet is at none of these
places, and neither is a packet just taken out of its buffer. -/
theorem received_and_selected_elsewhere :
    let atListed (history : State × Past State Action) : Prop :=
      (↑(observed State.received history.2) : Multiset Packet) =
        (history.1.located.filter fun entry => entry.1.listed).map Prod.snd
    ¬ Throughout (recorded State.step) atListed (State.initial, [])
        (.arrive (offeredPacket 0 .medium) :: List.replicate 3 .dispatch) ∧
      ¬ Throughout (recorded State.step) atListed (State.initial, [])
        (.arrive (offeredPacket 0 .high) :: dispatchHigh ++ workHigh ++ List.replicate 6 .reorder) := by
  decide +kernel

end EdfPipeline.McEdf
