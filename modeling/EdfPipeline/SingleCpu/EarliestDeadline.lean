import EdfPipeline.SingleCpu.Moves
import EdfPipeline.Outputs

/-!
# Earliest deadline first without a heap

Tasks are added at the back only. With one budget for all sockets of a class
every new deadline of the class is the latest so far, so each queue stays sorted
and its front is its earliest task.
-/

set_option autoImplicit false

namespace EdfPipeline.SingleCpu

open TransitionSystem
open Edf (EDFTask)

/-- The sockets the running call has still to read, with their class. -/
def Call.pending : Call → List (Priority × SocketConfig)
  | .next priority sockets _ => sockets.map (Prod.mk priority)
  | .receive priority config sockets _ => (config :: sockets).map (Prod.mk priority)
  | _ => []

/-- Sockets are registered with the budget of their class. -/
def Action.Registers (budgets : PriorityTable Duration) : Action → Prop
  | .addSocket _ priority latencyBudget => latencyBudget = budgets priority
  | _ => True

instance (budgets : PriorityTable Duration) : (action : Action) →
    Decidable (action.Registers budgets)
  | .addSocket _ _ _ => inferInstanceAs (Decidable (_ = _))
  | .tick _ | .processNext | .run | .recv _ _ | .send _ => inferInstanceAs (Decidable True)

namespace State

/-- What is read from a socket. -/
def received (state : State) : Action → Option (Priority × Packet)
  | .recv _ (.datagram (byte :: bytes)) =>
      match state.call with
      | .receive priority config _ _ => some (priority, state.packet priority config (byte :: bytes))
      | _ => none
  | _ => none

/-- What a step can do. -/
inductive Flow (state : State) : Action → State → Prop where
  | addSocket (socket : Nat) (priority : Priority) (latencyBudget : Duration) :
      Flow state (.addSocket socket priority latencyBudget) { state with
        socketConfigs := state.socketConfigs.set priority
          (state.socketConfigs priority ++ [{ socket, latencyBudget }]) }
  | tick (elapsed : Duration) :
      Flow state (.tick elapsed) { state with clock := state.clock + elapsed }
  | move {action : Action} {call : Call} (quiet : state.received action = none)
      (hand : call.hand = state.call.hand)
      (pending : ∀ entry ∈ call.pending,
        entry ∈ state.call.pending ∨ entry.2 ∈ state.socketConfigs entry.1) :
      Flow state action { state with call }
  | read {priority : Priority} {config : SocketConfig} {sockets : List SocketConfig}
      {rest : List Priority} {payload : List UInt8} {action : Action}
      (place : state.call = .receive priority config sockets rest)
      (sees : state.received action = some (priority, state.packet priority config payload)) :
      Flow state action { state.pushBack priority (.of (state.packet priority config payload)) with
        call := .next priority sockets rest
        nextPacketId := state.nextPacketId + 1 }
  | take {priority : Priority} {task : EDFTask} {rest : List EDFTask} (place : state.call = .select)
      (front : state.edfQueues priority = task :: rest)
      (least : ∀ other ∈ priorities, ∀ front ∈ (state.edfQueues other).head?,
        task.deadline ≤ front.deadline) :
      Flow state .run { state with
        edfQueues := state.edfQueues.set priority rest
        call := .busy task.packet state.clock }
  | forward {packet : Packet} {room : Bool} (place : state.call = .send packet) :
      Flow state (.send room) (state.forward packet room)

theorem received_dry (state : State) (available : Option Nat) {outcome : RecvOutcome}
    (nothing : ∀ byte bytes, outcome ≠ .datagram (byte :: bytes)) :
    state.received (.recv available outcome) = none := by
  unfold received
  split
  · rename_i sent
    cases sent
    exact absurd rfl (nothing _ _)
  · rfl

theorem step_flow {state next : State} {action : Action} (stepped : state.step action = some next) :
    Flow state action next := by
  cases step_moves stepped with
  | addSocket unlocked => exact .addSocket _ _ _
  | tick elapsed => exact .tick elapsed
  | refill place empty =>
      refine .move rfl (place ▸ rfl) ?_
      intro entry member
      obtain ⟨config, registered, rfl⟩ := List.mem_map.mp member
      exact .inr registered
  | next place running => exact .move rfl (place ▸ rfl) fun entry member => .inl (place ▸ member)
  | dry place nothing =>
      refine .move (state.received_dry _ nothing) (place ▸ rfl) ?_
      intro entry member
      rw [place]
      exact .inl (List.mem_cons_of_mem _ member)
  | read place => exact .read place (by simp [received, place])
  | take place front least => exact .take place front least
  | spin place unfinished => exact .move rfl rfl fun entry member => .inl member
  | processNext place | refilled place | filled place | leave place | idle place | done place =>
      exact .move rfl (place ▸ rfl) (by simp [Call.pending])
  | forward place => exact .forward place

/-! ## Sorted queues -/

abbrev Sorted (tasks : List EDFTask) : Prop :=
  tasks.Pairwise fun first second => first.deadline ≤ second.deadline

/-- All tasks of a class have one budget, so a new one has the latest deadline. -/
structure Ordered (budgets : PriorityTable Duration) (state : State) : Prop where
  registered : ∀ priority, ∀ config ∈ state.socketConfigs priority,
    config.latencyBudget = budgets priority
  reading : ∀ entry ∈ state.call.pending, entry.2.latencyBudget = budgets entry.1
  recent : ∀ priority, ∀ task ∈ state.edfQueues priority,
    task.deadline ≤ state.clock + budgets priority
  sorted : ∀ priority, Sorted (state.edfQueues priority)
  least : ∀ packet ∈ state.call.hand, ∀ priority ∈ priorities,
    ∀ task ∈ state.edfQueues priority, packet.deadline ≤ task.deadline

theorem initial_ordered (budgets : PriorityTable Duration) : initial.Ordered budgets where
  registered := by simp [initial]
  reading := by simp [initial, Call.pending]
  recent := by simp [initial]
  sorted priority := List.Pairwise.nil
  least := by simp [initial, Call.hand]

theorem sorted_push {tasks : List EDFTask} {task : EDFTask} (sorted : Sorted tasks)
    (latest : ∀ earlier ∈ tasks, earlier.deadline ≤ task.deadline) : Sorted (tasks ++ [task]) := by
  refine List.pairwise_append.mpr ⟨sorted, List.pairwise_singleton _ _, ?_⟩
  intro earlier member last here
  rw [List.mem_singleton.mp here]
  exact latest earlier member

theorem Ordered.read {budgets : PriorityTable Duration} {state : State}
    (ordered : state.Ordered budgets) {priority : Priority} {config : SocketConfig}
    {sockets : List SocketConfig} {rest : List Priority} {payload : List UInt8}
    (place : state.call = .receive priority config sockets rest) :
    { state.pushBack priority (.of (state.packet priority config payload)) with
      call := .next priority sockets rest
      nextPacketId := state.nextPacketId + 1 }.Ordered budgets := by
  have reading := ordered.reading
  rw [place] at reading
  have deadline : (EDFTask.of (state.packet priority config payload)).deadline =
      state.clock + budgets priority := by
    have budget : config.latencyBudget = budgets priority :=
      reading (priority, config) List.mem_cons_self
    rw [← budget]
    rfl
  refine { ordered with reading := ?_, recent := ?_, sorted := ?_, least := ?_ }
  · intro entry member
    exact reading entry (List.mem_cons_of_mem _ member)
  · exact PriorityTable.forall_mem_push ordered.recent deadline.le
  · refine PriorityTable.forall_set (fun _ tasks => Sorted tasks) ordered.sorted ?_
    refine sorted_push (ordered.sorted priority) ?_
    intro earlier member
    rw [deadline]
    exact ordered.recent priority earlier member
  · simp [Call.hand]

theorem Ordered.take {budgets : PriorityTable Duration} {state : State}
    (ordered : state.Ordered budgets) {priority : Priority} {task : EDFTask} {rest : List EDFTask}
    (front : state.edfQueues priority = task :: rest)
    (least : ∀ other ∈ priorities, ∀ front ∈ (state.edfQueues other).head?,
      task.deadline ≤ front.deadline) :
    { state with
      edfQueues := state.edfQueues.set priority rest
      call := .busy task.packet state.clock }.Ordered budgets := by
  have inside : ∀ other, ∀ task' ∈ state.edfQueues.set priority rest other,
      task' ∈ state.edfQueues other :=
    PriorityTable.forall_mem_pop (fun _ _ member => member) front
  have remaining := ordered.sorted priority
  rw [front] at remaining
  have after := List.pairwise_cons.mp remaining
  have all : ∀ other ∈ priorities, ∀ task' ∈ state.edfQueues other,
      task.deadline ≤ task'.deadline := by
    intro other member task' queued
    have sorted := ordered.sorted other
    have first := least other member
    cases queue : state.edfQueues other with
    | nil =>
        rw [queue] at queued
        cases queued
    | cons head tail =>
        rw [queue] at queued sorted first
        have head_first := first head rfl
        rcases List.mem_cons.mp queued with rfl | later
        · exact head_first
        · exact Nat.le_trans head_first ((List.pairwise_cons.mp sorted).1 task' later)
  refine { ordered with reading := by simp [Call.pending], recent := ?_, sorted := ?_, least := ?_ }
  · intro other task' member
    exact ordered.recent other task' (inside other task' member)
  · exact PriorityTable.forall_set (fun _ tasks => Sorted tasks) ordered.sorted after.2
  · intro packet hand other member task' queued
    rw [List.mem_singleton.mp hand, ← task.due]
    exact all other member task' (inside other task' queued)

theorem Flow.ordered {budgets : PriorityTable Duration} {state next : State} {action : Action}
    (flow : Flow state action next) (ordered : state.Ordered budgets)
    (registers : action.Registers budgets) : next.Ordered budgets := by
  cases flow with
  | addSocket socket priority latencyBudget =>
      refine { ordered with registered := ?_ }
      exact PriorityTable.forall_mem_push ordered.registered registers
  | tick elapsed =>
      refine { ordered with recent := ?_ }
      intro priority task member
      exact Nat.le_trans (ordered.recent priority task member)
        (Nat.add_le_add_right (Nat.le_add_right _ _) _)
  | move quiet hand pending =>
      refine { ordered with reading := ?_, least := ?_ }
      · intro entry member
        rcases pending entry member with earlier | fresh
        · exact ordered.reading entry earlier
        · exact ordered.registered entry.1 entry.2 fresh
      · rw [hand]
        exact ordered.least
  | read place sees => exact ordered.read place
  | take place front least => exact ordered.take front least
  | forward place =>
      refine { ordered with reading := ?_, least := ?_ }
      · intro entry member
        cases member
      · intro packet member
        cases member

/-! ## One line for each class -/

/-- Read from its oldest end: what was handed over, the packet in hand, the queue. -/
def lineOf (state : State) (priority : Priority) : List Packet :=
  (state.outputQueues priority).handed ++
    (state.call.hand.filter (fun packet => packet.priority = priority) ++
      (state.edfQueues priority).map EDFTask.packet)

abbrev Own (state : State) : Prop :=
  ∀ priority, ∀ task ∈ state.edfQueues priority, task.packet.priority = priority

/-- A read adds to the line at its end, and nothing else changes it. -/
theorem Flow.line {state next : State} {action : Action} (flow : Flow state action next)
    (own : state.Own) (priority : Priority) :
    next.lineOf priority =
      state.lineOf priority ++ ((state.received action).bind (ofClass priority)).toList := by
  cases flow with
  | addSocket socket other latencyBudget => exact (List.append_nil _).symm
  | tick elapsed => exact (List.append_nil _).symm
  | move quiet hand pending =>
      simp only [lineOf, hand, quiet, Option.bind_none, Option.toList_none, List.append_nil]
  | read place sees =>
      rename_i other config sockets rest payload
      by_cases same : other = priority
      · subst same
        simp [lineOf, sees, place, pushBack, Call.hand, ofClass, EDFTask.of]
      · simp [lineOf, sees, place, pushBack, Call.hand, ofClass, same,
          PriorityTable.set_other (Ne.symm same)]
  | take place front least =>
      rename_i other task rest
      have mine := own other task (front ▸ List.mem_cons_self)
      by_cases same : other = priority
      · subst same
        simp [lineOf, received, place, Call.hand, front, mine]
      · have elsewhere : task.packet.priority ≠ priority := mine ▸ same
        simp [lineOf, received, place, Call.hand, elsewhere, PriorityTable.set_other (Ne.symm same)]
  | forward place =>
      rename_i packet room
      simp only [lineOf, State.forward, handed_set_trySend, place, received, Call.hand]
      by_cases same : packet.priority = priority
      · simp [ofClass, same]
      · simp [ofClass, same]

theorem Flow.own {state next : State} {action : Action} (flow : Flow state action next)
    (own : state.Own) : next.Own := by
  cases flow with
  | read place sees => exact PriorityTable.forall_mem_push own rfl
  | take place front least => exact PriorityTable.forall_mem_pop own front
  | addSocket | tick | move | forward => exact own

theorem Flow.counted {state next : State} {action : Action} (flow : Flow state action next)
    (counted : ∀ priority, (state.outputQueues priority).Counted) :
    ∀ priority, (next.outputQueues priority).Counted := by
  cases flow with
  | forward place => exact counted_trySend counted _ _ _
  | addSocket | tick | move | read | take => exact counted

structure Kept (budgets : PriorityTable Duration) (history : State × Past State Action) : Prop where
  line : ∀ priority, seenOf received priority history.2 = history.1.lineOf priority
  own : history.1.Own
  counted : ∀ priority, (history.1.outputQueues priority).Counted
  ordered : history.1.Ordered budgets

theorem initial_kept (budgets : PriorityTable Duration) : Kept budgets (initial, []) where
  line priority := rfl
  own := by simp [Own, initial]
  counted priority := OutputQueue.counted_initial
  ordered := initial_ordered budgets

theorem step_kept {budgets : PriorityTable Duration} {history next : State × Past State Action}
    {action : Action} (kept : Kept budgets history) (registers : action.Registers budgets)
    (stepped : recorded step history action = some next) : Kept budgets next := by
  obtain ⟨moved, past⟩ := recorded_eq_some.mp stepped
  have flow := step_flow moved
  refine ⟨fun priority => ?_, flow.own kept.own, flow.counted kept.counted,
    flow.ordered kept.ordered registers⟩
  rw [past, seenOf_append, flow.line kept.own, kept.line]

/-- What holds in every state: the queues are sorted, the selected packet is due
no later than any packet queued, and each class is handed over in the order it
was read, drops counted. -/
structure EarliestDeadline (history : State × Past State Action) : Prop where
  sorted : ∀ priority, Sorted (history.1.edfQueues priority)
  selected : ∀ packet ∈ history.1.call.hand, ∀ priority ∈ priorities,
    ∀ task ∈ history.1.edfQueues priority, packet.deadline ≤ task.packet.deadline
  inOrder : ∀ priority,
    (history.1.outputQueues priority).handed <+: seenOf received priority history.2
  counted : ∀ priority, (history.1.outputQueues priority).Counted

theorem Kept.earliestDeadline {budgets : PriorityTable Duration}
    {history : State × Past State Action} (kept : Kept budgets history) :
    EarliestDeadline history where
  sorted := kept.ordered.sorted
  selected packet hand priority member task queued :=
    task.due ▸ kept.ordered.least packet hand priority member task queued
  inOrder priority := by
    rw [kept.line]
    exact List.prefix_append _ _
  counted := kept.counted

end State

/-- In every run in which all sockets of a class are registered with one budget,
the earliest deadline is served first and each class in the order it was read. -/
theorem earliestDeadline_throughout (budgets : PriorityTable Duration) (actions : List Action)
    (registered : ∀ action ∈ actions, action.Registers budgets) :
    Throughout (recorded State.step) State.EarliestDeadline (State.initial, []) actions :=
  throughout_guarded State.step_kept State.Kept.earliestDeadline (State.initial_kept budgets)
    (along_of_forall registered _)

/-! ## Two High sockets and a Low one -/

def millis : PriorityTable Duration
  | .high => Duration.fromMillis 1
  | .medium => Duration.fromMillis 10
  | .low | .bestEffort => Duration.fromMillis 50

def registerSockets : List Action :=
  [.addSocket 0 .high (millis .high), .addSocket 1 .high (millis .high),
    .addSocket 2 .low (millis .low)]

def readSocket (byte : UInt8) : List Action := [.run, .tick 5, .recv none (.datagram [byte])]

/-- One call of `process_next` that finds a datagram at every socket. -/
def serveOne : List Action :=
  [.processNext, .run] ++ readSocket 1 ++ readSocket 2 ++ List.replicate 4 .run ++ readSocket 3 ++
    List.replicate 3 .run ++ [.tick (Duration.fromMillis 1), .run, .send true]

theorem earliestDeadline_serveOne :
    Throughout (recorded State.step) State.EarliestDeadline (State.initial, [])
        (registerSockets ++ serveOne) ∧
      (run State.initial (registerSockets ++ serveOne)).map (fun state =>
          ((state.outputQueues .high).sent.map Packet.id,
            (state.edfQueues .high).map (fun task => task.packet.id),
            (state.edfQueues .low).map fun task => task.packet.id)) =
        some ([0], [1], [2]) :=
  ⟨earliestDeadline_throughout millis _ (by decide +kernel), by decide +kernel⟩

end EdfPipeline.SingleCpu
