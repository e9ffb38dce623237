import EdfPipeline.McEdf.Moves

/-!
# Classes through MC-EDF

The re-ordering stage takes the class of a packet from the EDF that carried it.
It recovers the class the packet entered with as long as the dispatcher sends
every packet to the EDF of its own class: High packets to the High one, and no
BestEffort packet at all.
-/

set_option autoImplicit false

namespace EdfPipeline.McEdf

open EarliestFirst

namespace State

/-- Every packet handed to an output queue has the class of that queue. -/
def ClassPreserved (state : State) : Prop :=
  ∀ priority, ∀ packet ∈ (state.outputQueues priority).handed, packet.priority = priority

instance (state : State) : Decidable state.ClassPreserved :=
  inferInstanceAs (Decidable
    (∀ priority, ∀ packet ∈ (state.outputQueues priority).handed, packet.priority = priority))

/-- Where the dispatcher decides, it decides for the EDF of the packet's class. -/
def KeepsHome (state : State) : Action → Prop
  | .dispatch =>
      match state.dispatcher with
      | .assign _ => state.distributionStats.findBestChannel = .high
      | .receive .bestEffort => (state.inputQueues .bestEffort).queue = []
      | _ => True
  | _ => True

instance (state : State) (action : Action) : Decidable (state.KeepsHome action) := by
  unfold KeepsHome
  split
  · split <;> infer_instance
  · infer_instance

end State

/-- The packets the dispatcher holds, each with the EDF it is bound for; a batch
without channels yet is taken to be bound for the High one. -/
def DispatcherPc.bound : DispatcherPc → List (EdfChannel × Packet)
  | .collect _ highBatch | .assign highBatch =>
      highBatch.map fun batched => (.high, batched.task.packet)
  | .send channels | .recordDistribution _ _ channels =>
      channels.map fun entry => (entry.1, entry.2.task.packet)
  | .deliver task => [((lowerRoute task.priority).1, task.packet)]
  | _ => []

namespace State

/-- Every packet in the scheduler is on its way through the EDF of its class. -/
structure InClass (state : State) : Prop where
  offered : ∀ priority, ∀ packet ∈ (state.inputQueues priority).queue, packet.priority = priority
  lower : state.dispatcher ≠ .receive .high
  bound : ∀ entry ∈ state.dispatcher.bound, entry.2.priority = entry.1.priority
  queued : ∀ channel priority, ∀ task ∈ (state.edfInputs channel priority).queue,
    task.packet.priority = channel.priority
  worked : ∀ channel, ∀ task ∈ (state.workers channel).tasks,
    task.packet.priority = channel.priority
  finished : ∀ channel, ∀ packet ∈ (state.edfOutputs channel).queue,
    packet.priority = channel.priority
  buffered : ∀ channel, ∀ ordered ∈ state.reorder.buffers channel,
    ordered.packet.priority = ordered.priority
  forwarding : ∀ ordered, state.reorder.pc = .forward ordered →
    ordered.packet.priority = ordered.priority
  preserved : state.ClassPreserved

theorem initial_inClass : initial.InClass where
  offered := by simp [initial, Channel.empty]
  lower := by simp [initial]
  bound := by simp [initial, DispatcherPc.bound]
  queued := by simp [initial]
  worked channel := by cases channel <;> simp [initial, EdfWorker.initial, EdfWorker.tasks, WorkerPc.held]
  finished := by simp [initial, Channel.empty]
  buffered := by simp [initial, Reorder.initial]
  forwarding := by simp [initial, Reorder.initial]
  preserved := by simp [ClassPreserved, initial]

theorem InClass.setWorker {state : State} (inClass : state.InClass) {channel : EdfChannel}
    {worker : EdfWorker} (home : ∀ task ∈ worker.tasks, task.packet.priority = channel.priority) :
    (state.setWorker channel worker).InClass :=
  { inClass with
    worked := (Function.forall_update_iff state.workers
      fun channel worker => ∀ task ∈ worker.tasks, task.packet.priority = channel.priority).mpr
      ⟨home, fun other _ => inClass.worked other⟩ }

theorem InClass.setInput {state : State} (inClass : state.InClass) {priority : Priority}
    {input : Channel Packet} (own : ∀ packet ∈ input.queue, packet.priority = priority) :
    (state.setInput priority input).InClass :=
  { inClass with
    offered := PriorityTable.forall_set
      (fun priority (input : Channel Packet) => ∀ packet ∈ input.queue, packet.priority = priority)
      inClass.offered own }

theorem InClass.setEdfInput {state : State} (inClass : state.InClass) {channel : EdfChannel}
    {priority : Priority} {input : Channel EDFTask}
    (home : ∀ task ∈ input.queue, task.packet.priority = channel.priority) :
    (state.setEdfInput channel priority input).InClass :=
  { inClass with
    queued := (Function.forall_update_iff state.edfInputs
      fun channel inputs => ∀ priority, ∀ task ∈ (inputs priority).queue,
        task.packet.priority = channel.priority).mpr
      ⟨PriorityTable.forall_set
        (fun _ (input : Channel EDFTask) =>
          ∀ task ∈ input.queue, task.packet.priority = channel.priority)
        (inClass.queued channel) home,
        fun other _ => inClass.queued other⟩ }

theorem InClass.setEdfOutput {state : State} (inClass : state.InClass) {channel : EdfChannel}
    {output : Channel Packet}
    (home : ∀ packet ∈ output.queue, packet.priority = channel.priority) :
    (state.setEdfOutput channel output).InClass :=
  { inClass with
    finished := (Function.forall_update_iff state.edfOutputs
      fun channel output => ∀ packet ∈ output.queue, packet.priority = channel.priority).mpr
      ⟨home, fun other _ => inClass.finished other⟩ }

theorem WorkerMove.inClass {state next : State} {channel : EdfChannel} (inClass : state.InClass)
    (move : WorkerMove state channel next) : next.InClass := by
  cases move with
  | keep same =>
      exact inClass.setWorker fun task member =>
        inClass.worked channel task (same.mem_iff.mp member)
  | gain received gained =>
      rename_i worker priority task remaining
      have waiting := inClass.queued channel priority
      rw [received] at waiting
      have left : (state.setEdfInput channel priority remaining).InClass :=
        inClass.setEdfInput fun other member => waiting other (List.mem_cons_of_mem _ member)
      refine left.setWorker ?_
      intro other member
      rcases List.mem_cons.mp (gained.mem_iff.mp member) with same | mine
      · exact same ▸ waiting task List.mem_cons_self
      · exact inClass.worked channel other mine
  | output released =>
      rename_i worker task
      have held (other : EDFTask) (member : other ∈ task :: worker.tasks) :=
        inClass.worked channel other (released.mem_iff.mpr member)
      have sent : (state.setEdfOutput channel
          ((state.edfOutputs channel).send task.packet)).InClass := by
        refine inClass.setEdfOutput ?_
        intro packet member
        rcases List.mem_append.mp member with queued | new
        · exact inClass.finished channel packet queued
        · rw [List.mem_singleton.mp new]
          exact held task List.mem_cons_self
      exact sent.setWorker fun other member => held other (List.mem_cons_of_mem _ member)

theorem InClass.sendTask {state : State} (inClass : state.InClass) {channel : EdfChannel}
    (priority : Priority) {task : EDFTask} (home : task.packet.priority = channel.priority) :
    (state.sendTask channel priority task).InClass := by
  refine inClass.setEdfInput ?_
  intro other member
  rcases List.mem_append.mp member with queued | new
  · exact inClass.queued channel priority other queued
  · rw [List.mem_singleton.mp new]
    exact home

theorem InClass.setDispatcher {state : State} (inClass : state.InClass) {dispatcher : DispatcherPc}
    (lower : dispatcher ≠ .receive .high)
    (bound : ∀ entry ∈ dispatcher.bound, entry.2.priority = entry.1.priority) :
    { state with dispatcher }.InClass :=
  { inClass with lower, bound }

theorem InClass.free {state : State} (inClass : state.InClass) {dispatcher : DispatcherPc}
    (lower : dispatcher ≠ .receive .high) (free : dispatcher.bound = []) :
    { state with dispatcher }.InClass :=
  inClass.setDispatcher lower (by simp [free])

theorem after_ne (priority : Priority) : DispatcherPc.after priority ≠ .receive .high := by
  cases priority <;> simp [DispatcherPc.after]

theorem after_bound (priority : Priority) : (DispatcherPc.after priority).bound = [] := by
  cases priority <;> rfl

/-- A received packet is of the class of its queue, and so are the others. -/
theorem InClass.received {state : State} (inClass : state.InClass) {priority : Priority}
    {packet : Packet} {remaining : Channel Packet}
    (front : (state.inputQueues priority).queue = packet :: remaining.queue) :
    packet.priority = priority ∧ (state.setInput priority remaining).InClass := by
  have waiting := inClass.offered priority
  rw [front] at waiting
  refine ⟨waiting packet List.mem_cons_self, inClass.setInput ?_⟩
  intro other member
  exact waiting other (List.mem_cons_of_mem _ member)

theorem DispatchMove.inClass {state next : State} (inClass : state.InClass)
    (home : state.KeepsHome .dispatch) (move : DispatchMove state next) : next.InClass := by
  have bound := inClass.bound
  cases move with
  | top place => split <;> exact inClass.free (by simp) rfl
  | collect place room front =>
      rw [place] at bound
      obtain ⟨own, left⟩ := inClass.received front
      refine left.setDispatcher (by simp) ?_
      intro entry member
      simp only [DispatcherPc.bound, List.map_append, List.map_cons, List.map_nil,
        List.mem_append, List.mem_singleton] at member
      rcases member with earlier | same
      · exact bound entry earlier
      · rw [same]
        exact own
  | collected place ends =>
      rw [place] at bound
      split
      · exact inClass.free (after_ne _) (after_bound _)
      · exact inClass.setDispatcher (by simp) bound
  | assign place =>
      rw [place] at bound
      simp only [KeepsHome, place] at home
      refine inClass.setDispatcher (by simp) ?_
      rw [home]
      simpa [DispatcherPc.bound] using bound
  | send place =>
      rw [place] at bound
      have sent := inClass.sendTask .high (bound _ (List.mem_map_of_mem List.mem_cons_self))
      refine sent.setDispatcher (by simp) ?_
      intro other member
      obtain ⟨source, later, same⟩ := List.mem_map.mp member
      exact bound other (List.mem_map.mpr ⟨source, List.mem_cons_of_mem _ later, same⟩)
  | sent place => exact inClass.free (after_ne _) (after_bound _)
  | record place =>
      rw [place] at bound
      exact { inClass with lower := by simp, bound }
  | receive place front =>
      rename_i priority packet remaining
      obtain ⟨own, left⟩ := inClass.received front
      refine left.setDispatcher (by simp) ?_
      intro entry member
      rw [List.mem_singleton.mp member]
      cases priority with
      | high => exact absurd place inClass.lower
      | medium | low => exact own
      | bestEffort =>
          simp only [KeepsHome, place] at home
          rw [front] at home
          cases home
  | skip place empty => exact inClass.free (after_ne _) (after_bound _)
  | deliver place =>
      rename_i task
      rw [place] at bound
      have sent := inClass.sendTask (lowerRoute task.priority).2
        (bound _ (List.mem_singleton.mpr rfl))
      exact sent.free (after_ne _) (after_bound _)

theorem InClass.setReorder {state : State} (inClass : state.InClass) {pc : ReorderPc}
    (idle : ∀ ordered, pc ≠ .forward ordered) :
    { state with reorder := { state.reorder with pc } }.InClass :=
  { inClass with forwarding := fun ordered here => absurd here (idle ordered) }

theorem ReorderMove.inClass {state next : State} {action : Action} (inClass : state.InClass)
    (move : ReorderMove state action next) : next.InClass := by
  -- a buffer is filled or emptied
  have updated {channel : EdfChannel} {buffer : Option OrderedPacket}
      (fitting : ∀ ordered ∈ buffer, ordered.packet.priority = ordered.priority) :=
    (Function.forall_update_iff state.reorder.buffers
      fun (channel : EdfChannel) buffer => ∀ ordered ∈ buffer,
        ordered.packet.priority = ordered.priority).mpr
      ⟨fitting, fun other (_ : other ≠ channel) => inClass.buffered other⟩
  cases move with
  | begin | quit | skip | filled | idle => exact inClass.setReorder (by simp)
  | take place empty front =>
      rename_i channel rest packet remaining
      have waiting := inClass.finished channel
      rw [front] at waiting
      have left : (state.setEdfOutput channel remaining).InClass :=
        inClass.setEdfOutput fun other member => waiting other (List.mem_cons_of_mem _ member)
      refine { left with buffered := updated ?_, forwarding := by simp }
      intro ordered same
      cases same
      exact waiting packet List.mem_cons_self
  | select place held least =>
      rename_i channel ordered
      refine { inClass with buffered := updated (by simp), forwarding := ?_ }
      intro other here
      cases here
      exact inClass.buffered channel ordered held
  | forward place =>
      rename_i ordered room
      have fitting := inClass.forwarding ordered place
      refine { inClass with forwarding := by simp, preserved := ?_ }
      refine PriorityTable.forall_set (fun priority (output : OutputQueue) =>
        ∀ packet ∈ output.handed, packet.priority = priority) inClass.preserved ?_
      intro packet member
      rw [OutputQueue.handed_trySend] at member
      rcases List.mem_append.mp member with earlier | new
      · exact inClass.preserved ordered.priority packet earlier
      · rw [List.mem_singleton.mp new]
        exact fitting

theorem step_inClass {state next : State} {action : Action} (inClass : state.InClass)
    (home : state.KeepsHome action) (stepped : state.step action = some next) : next.InClass := by
  cases action with
  | arrive packet =>
      simp only [step] at stepped
      split at stepped
      · cases stepped
      · cases stepped
        refine inClass.setInput ?_
        intro other member
        rcases List.mem_append.mp member with earlier | new
        · exact inClass.offered packet.priority other earlier
        · rw [List.mem_singleton.mp new]
  | disconnect priority =>
      cases stepped
      exact inClass.setInput (inClass.offered priority)
  | tick elapsed | stop =>
      cases stepped
      exact { inClass with }
  | dispatch => exact (dispatch_moves stepped).inClass inClass home
  | run channel => exact (runWorker_move stepped).inClass inClass
  | pop channel task => exact (popWorker_move stepped).inClass inClass
  | await channel timeout => exact (awaitWorker_move stepped).inClass inClass
  | reorder => exact (runReorder_moves stepped).inClass inClass
  | forward room => exact (forwardReorder_moves stepped).inClass inClass

end State

/-- In a run whose dispatcher keeps every packet in the EDF of its class, each
packet is handed to the output queue of its class. -/
theorem classPreserved_of_keepsHome {actions : List Action}
    (home : TransitionSystem.Along State.step State.KeepsHome State.initial actions) :
    TransitionSystem.Throughout State.step State.ClassPreserved State.initial actions :=
  TransitionSystem.throughout_guarded State.step_inClass State.InClass.preserved
    State.initial_inClass home

/-! ## Runs in which packets keep and lose their class -/

def offeredPacket (id : Nat) (priority : Priority) : Packet :=
  Packet.fromBuffer id 0 priority [0] (Duration.fromMillis 1)

def dispatchHigh : List Action := List.replicate 10 .dispatch

def dispatchLower : List Action := List.replicate 6 .dispatch

def workHigh : List Action :=
  List.replicate 4 (.run .high) ++ [.tick (Duration.fromMicros 50)] ++ List.replicate 2 (.run .high)

def workUrgent (channel : EdfChannel) (packet : Packet) : List Action :=
  [.run channel, .run channel, .pop channel (.of .high packet), .run channel,
    .tick (Duration.fromMicros 50), .run channel, .run channel]

def workLower (channel : EdfChannel) (task : EDFTask) : List Action :=
  List.replicate 7 (.run channel) ++
    [.pop channel task, .await channel maxTimeout, .tick maxTimeout, .run channel, .run channel,
      .tick (Duration.fromMicros 50), .run channel, .run channel]

def merge : List Action := List.replicate 6 .reorder ++ [.forward true]

/-- A single High packet and a Medium one go through the EDFs of their classes. -/
def homeRun : List Action :=
  .arrive (offeredPacket 0 .high) :: dispatchHigh ++ workHigh ++ merge ++
    .arrive (offeredPacket 1 .medium) :: dispatchLower ++
    workLower .medium (.of .medium (offeredPacket 1 .medium)) ++ merge

theorem homeRun_preserves_classes :
    TransitionSystem.Along State.step State.KeepsHome State.initial homeRun ∧
      TransitionSystem.Throughout State.step State.ClassPreserved State.initial homeRun ∧
      (run State.initial homeRun).map (fun state =>
          ((state.outputQueues .high).handed, (state.outputQueues .medium).handed)) =
        some ([offeredPacket 0 .high], [offeredPacket 1 .medium]) :=
  ⟨by decide +kernel, classPreserved_of_keepsHome (by decide +kernel), by decide +kernel⟩

def spreadRun : List Action :=
  .arrive (offeredPacket 0 .high) :: dispatchHigh ++ .arrive (offeredPacket 1 .high) ::
    dispatchHigh ++ workUrgent .medium (offeredPacket 1 .high) ++ merge

def foldedRun : List Action :=
  .arrive (offeredPacket 0 .bestEffort) :: dispatchLower ++
    workLower .low (.of .bestEffort (offeredPacket 0 .bestEffort)) ++ merge

/-- Both packets are forwarded on the output queue of the EDF that carried them. -/
theorem high_forwarded_as_medium :
    ¬ TransitionSystem.Throughout State.step State.ClassPreserved State.initial spreadRun ∧
      (run State.initial spreadRun).map (fun state => (state.outputQueues .medium).handed) =
        some [offeredPacket 1 .high] ∧
      ¬ TransitionSystem.Throughout State.step State.ClassPreserved State.initial foldedRun ∧
      (run State.initial foldedRun).map (fun state => (state.outputQueues .low).handed) =
        some [offeredPacket 0 .bestEffort] := by
  decide +kernel

end EdfPipeline.McEdf
