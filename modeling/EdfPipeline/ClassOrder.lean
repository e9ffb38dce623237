import EdfPipeline.Cedf.Conservation
import EdfPipeline.Gedf.Conservation
import EdfPipeline.Library.HandOver

/-!
# Order within a class

The fan-out schedulers hand the packets of a class over in the order they took
them, as long as a worker takes one in hand only after all earlier ones have
been handed over. Two workers that each have one in hand may overtake each other.
-/

set_option autoImplicit false

namespace EdfPipeline

open HandOver Ledger TransitionSystem

/-! ## A shared run queue -/

namespace Gedf

variable {κ : Type} {n : Nat}

def QueuedTask.item (task : QueuedTask κ) : Priority × Packet := (task.priority, task.packet)

namespace State

/-- The packets of a class in the hands of workers. -/
def handsOf (priority : Priority) (state : State κ n) : Multiset Packet :=
  ∑ id, classPackets priority ↑((state.workers id).tasks.map QueuedTask.item)

def InOrder (priority : Priority) (history : State κ n × Past (State κ n) (Action κ n)) : Prop :=
  (history.1.outputQueues priority).handed <+: seenOf received priority history.2

/-- A packet of the class is taken in hand only while no worker has one, and when
all that were taken from the input channel before it have been handed over. -/
def TakesNext (priority : Priority) (history : State κ n × Past (State κ n) (Action κ n)) :
    Action κ n → Prop
  | .pop _ task => task.priority = priority → history.1.handsOf priority = 0 ∧
      (history.1.outputQueues priority).handed ++ [task.packet] <+:
        seenOf received priority history.2
  | _ => True

instance decidableInOrder (priority : Priority)
    (history : State κ n × Past (State κ n) (Action κ n)) : Decidable (InOrder priority history) :=
  inferInstanceAs (Decidable (_ <+: _))

instance decidableTakesNext (priority : Priority)
    (history : State κ n × Past (State κ n) (Action κ n)) :
    (action : Action κ n) → Decidable (TakesNext priority history action)
  | .pop _ task => inferInstanceAs (Decidable (task.priority = priority → _ = _ ∧ _ <+: _))
  | .arrive _ | .disconnect _ | .tick _ | .stop | .dispatch | .notify _ | .run _ | .wake _
  | .forward _ _ => inferInstanceAs (Decidable True)

def InTurnOf (priority : Priority) (history : State κ n × Past (State κ n) (Action κ n)) : Prop :=
  InTurn (seenOf received priority history.2) (history.1.outputQueues priority).handed
    (history.1.handsOf priority)

theorem initial_inTurn (priority : Priority) : InTurnOf priority (State.initial κ n, []) := by
  have empty : (State.initial κ n).handsOf priority = 0 :=
    Finset.sum_eq_zero fun _ _ => rfl
  rw [InTurnOf, empty]
  exact inTurn_nil

variable [LinearOrder κ] {key : Priority → Packet → κ}

theorem Flow.inTurn {state next : State κ n} {action : Action κ n} (flow : Flow key state action next)
    {priority : Priority} {taken : List Packet}
    (inTurn : InTurn taken (state.outputQueues priority).handed (state.handsOf priority))
    (takes : ∀ id task, action = .pop id task → task.priority = priority →
      state.handsOf priority = 0 ∧ (state.outputQueues priority).handed ++ [task.packet] <+: taken) :
    InTurn taken (next.outputQueues priority).handed (next.handsOf priority) := by
  cases flow with
  | still quiet inputs outputs dispatcher heap workers =>
      simpa only [handsOf, outputs, workers] using inTurn
  | arrive | take | push => exact inTurn
  | pop place greatest =>
      rename_i id task
      have grown : classPackets priority ↑((WorkerPc.process task).tasks.map QueuedTask.item) =
          (ofClass priority task.item).elim 0 singleton +
            classPackets priority ↑((state.workers id).tasks.map QueuedTask.item) := by
        rw [place]
        exact classPackets_add priority task.item 0
      have hands := @sum_update_add _ _ _ _ _ _
        (fun pc : WorkerPc κ => classPackets priority ↑(pc.tasks.map QueuedTask.item)) _ _ _ _ grown
      have grabbed : InTurn taken (state.outputQueues priority).handed
          ((ofClass priority task.item).elim 0 singleton + state.handsOf priority) := by
        refine inTurn.grab ?_
        intro packet member
        obtain ⟨own, rfl⟩ := mem_ofClass.mp member
        exact takes id task rfl own
      simpa only [handsOf, State.goto, hands] using grabbed
  | forward place =>
      rename_i id task room
      have shrunk : classPackets priority ↑((state.workers id).tasks.map QueuedTask.item) =
          (ofClass priority task.item).elim 0 singleton +
            classPackets priority ↑((WorkerPc.lock : WorkerPc κ).tasks.map QueuedTask.item) := by
        rw [place]
        exact classPackets_add priority task.item 0
      have hands := @sum_update_release _ _ _ _ _ _
        (fun pc : WorkerPc κ => classPackets priority ↑(pc.tasks.map QueuedTask.item)) _ _ _ _ shrunk
      rw [handsOf, hands] at inTurn
      have handed := inTurn.hand
      rwa [← handed_set_trySend _ _ _ fun _ => room] at handed

theorem step_inTurn {priority : Priority} {history next : State κ n × Past (State κ n) (Action κ n)}
    {action : Action κ n} (inTurn : InTurnOf priority history)
    (takes : TakesNext priority history action)
    (stepped : recorded (State.step key) history action = some next) : InTurnOf priority next := by
  obtain ⟨moved, past⟩ := recorded_eq_some.mp stepped
  rw [InTurnOf, past, seenOf_append]
  refine (step_flow moved).inTurn (InTurn.take inTurn _) ?_
  intro id task same own
  subst same
  obtain ⟨free, next⟩ := takes own
  exact ⟨free, next.trans (List.prefix_append _ _)⟩

theorem inOrder_of_takesNext (key : Priority → Packet → κ) (n : Nat) (priority : Priority)
    (actions : List (Action κ n))
    (takes : Along (recorded (State.step key)) (TakesNext priority) (State.initial κ n, []) actions) :
    Throughout (recorded (State.step key)) (InOrder priority) (State.initial κ n, []) actions :=
  throughout_guarded step_inTurn InTurn.inOrder (initial_inTurn priority) takes

end State

end Gedf

/-! ## A queue for each worker -/

namespace Cedf

variable {n : Nat}

namespace State

/-- The packets of a class in the hands of workers. -/
def handsOf (priority : Priority) (state : State n) : Multiset Packet :=
  ∑ id, classPackets priority (state.workers id).items

def InOrder (priority : Priority) (history : State n × Past (State n) (Action n)) : Prop :=
  (history.1.outputQueues priority).handed <+: seenOf received priority history.2

/-- A packet of the class is popped, or received by a worker, only while no worker
has one in hand, and when all that were taken from the input channel before it
have been handed over. -/
def TakesNext (priority : Priority) (history : State n × Past (State n) (Action n)) :
    Action n → Prop
  | .pop _ task => task.priority = priority → history.1.handsOf priority = 0 ∧
      (history.1.outputQueues priority).handed ++ [task.packet] <+:
        seenOf received priority history.2
  | .run id => ∀ packet ∈ (history.1.received (.run id)).bind (ofClass priority),
      history.1.handsOf priority = 0 ∧
        (history.1.outputQueues priority).handed = seenOf received priority history.2
  | _ => True

instance decidableInOrder (priority : Priority) (history : State n × Past (State n) (Action n)) :
    Decidable (InOrder priority history) :=
  inferInstanceAs (Decidable (_ <+: _))

instance decidableTakesNext (priority : Priority) (history : State n × Past (State n) (Action n)) :
    (action : Action n) → Decidable (TakesNext priority history action)
  | .pop _ task => inferInstanceAs (Decidable (task.priority = priority → _ = _ ∧ _ <+: _))
  | .run _ => inferInstanceAs (Decidable (∀ packet ∈ Option.bind _ _, _ = _ ∧ _ = _))
  | .arrive _ | .disconnect _ | .tick _ | .stop | .dispatch | .forward _ _ =>
      inferInstanceAs (Decidable True)

def InTurnOf (priority : Priority) (history : State n × Past (State n) (Action n)) : Prop :=
  InTurn (seenOf received priority history.2) (history.1.outputQueues priority).handed
    (history.1.handsOf priority)

theorem initial_inTurn (priority : Priority) : InTurnOf priority (State.initial n, []) := by
  have empty : (State.initial n).handsOf priority = 0 :=
    Finset.sum_eq_zero fun _ _ => rfl
  rw [InTurnOf, empty]
  exact inTurn_nil

theorem handsOf_update {priority : Priority} {item : Priority × Packet} {workers : Fin n → Pc}
    {id : Fin n} {pc : Pc} (grown : pc.items = {item} + (workers id).items) :
    ∑ other, classPackets priority (Function.update workers id pc other).items =
      (ofClass priority item).elim 0 singleton +
        ∑ other, classPackets priority (workers other).items := by
  have gain : classPackets priority pc.items =
      (ofClass priority item).elim 0 singleton + classPackets priority (workers id).items := by
    rw [grown, classPackets_add]
  exact @sum_update_add _ _ _ _ _ _ (fun pc : Pc => classPackets priority pc.items) _ _ _ _ gain

theorem handsOf_release {priority : Priority} {item : Priority × Packet} {workers : Fin n → Pc}
    {id : Fin n} {pc : Pc} (shrunk : (workers id).items = {item} + pc.items) :
    ∑ other, classPackets priority (workers other).items =
      (ofClass priority item).elim 0 singleton +
        ∑ other, classPackets priority (Function.update workers id pc other).items := by
  have loss : classPackets priority (workers id).items =
      (ofClass priority item).elim 0 singleton + classPackets priority pc.items := by
    rw [shrunk, classPackets_add]
  exact @sum_update_release _ _ _ _ _ _ (fun pc : Pc => classPackets priority pc.items) _ _ _ _ loss

theorem Flow.inTurn {state next : State n} {action : Action n} (flow : Flow state action next)
    {priority : Priority} {taken : List Packet}
    (inTurn : InTurn taken (state.outputQueues priority).handed (state.handsOf priority))
    (pops : ∀ id task, action = .pop id task → task.priority = priority →
      state.handsOf priority = 0 ∧ (state.outputQueues priority).handed ++ [task.packet] <+: taken)
    (receives : ∀ id, action = .run id →
      ∀ packet ∈ (state.received (.run id)).bind (ofClass priority),
        state.handsOf priority = 0 ∧ (state.outputQueues priority).handed ++ [packet] <+: taken) :
    InTurn taken (next.outputQueues priority).handed (next.handsOf priority) := by
  cases flow with
  | still quiet inputs outputs dispatcher heaps jobs incoming =>
      simpa only [handsOf, Pc.items, outputs, jobs, incoming] using inTurn
  | arrive | take | assign => exact inTurn
  | pop place popped =>
      rename_i id task queue
      have grown : (Pc.popped (.of task)).items = {task.item} + (state.workers id).items := by
        rw [place]
        rfl
      have grabbed : InTurn taken (state.outputQueues priority).handed
          ((ofClass priority task.item).elim 0 singleton + state.handsOf priority) := by
        refine inTurn.grab ?_
        intro packet member
        obtain ⟨own, rfl⟩ := mem_ofClass.mp member
        exact pops id task rfl own
      rwa [handsOf, ← handsOf_update grown] at grabbed
  | receive sees taken same free holds =>
      rename_i id other packet remaining pc
      have grown : pc.items = {(other, packet)} + (state.workers id).items :=
        items_receive same free holds
      rw [handsOf, setInput, State.goto, handsOf_update grown]
      refine inTurn.grab fun packet member => receives id rfl packet ?_
      rwa [sees]
  | displace quiet running holds item now free =>
      rename_i id job task requeued pc
      have shrunk : (state.workers id).items = {job.item} + pc.items :=
        items_displace running holds now free
      rw [handsOf, handsOf_release shrunk] at inTurn
      exact inTurn.release
  | forward place =>
      rename_i id job room
      have shrunk : (state.workers id).items = {job.item} + Pc.top.items := by
        rw [place]
        rfl
      rw [handsOf, handsOf_release shrunk] at inTurn
      have handed := inTurn.hand
      rwa [Job.item, ← handed_set_trySend _ _ _ fun _ => room] at handed

theorem step_inTurn {priority : Priority} {history next : State n × Past (State n) (Action n)}
    {action : Action n} (inTurn : InTurnOf priority history)
    (takes : TakesNext priority history action)
    (stepped : recorded State.step history action = some next) : InTurnOf priority next := by
  obtain ⟨moved, past⟩ := recorded_eq_some.mp stepped
  rw [InTurnOf, past, seenOf_append]
  refine (step_flow moved).inTurn (InTurn.take inTurn _) ?_ ?_
  · intro id task same own
    subst same
    obtain ⟨free, next⟩ := takes own
    exact ⟨free, next.trans (List.prefix_append _ _)⟩
  · intro id same packet own
    subst same
    obtain ⟨free, all⟩ := takes packet own
    rw [all, Option.mem_def.mp own]
    exact ⟨free, List.prefix_refl _⟩

theorem inOrder_of_takesNext (n : Nat) (priority : Priority) (actions : List (Action n))
    (takes : Along (recorded State.step) (TakesNext priority) (State.initial n, []) actions) :
    Throughout (recorded State.step) (InOrder priority) (State.initial n, []) actions :=
  throughout_guarded step_inTurn InTurn.inOrder (initial_inTurn priority) takes

end State

end Cedf

/-- In every run in which packets of the class are taken in hand one after the
other, oldest first, the G-EDF, the G-EDF-VD and the C-EDF scheduler with any
number of workers hand them over in the order they were taken. -/
theorem classOrder_of_takesNext (n : Nat) (priority : Priority) :
    (∀ actions, Along (recorded (Gedf.State.step Gedf.deadline)) (Gedf.State.TakesNext priority)
        (Gedf.State.initial Instant n, []) actions →
      Throughout (recorded (Gedf.State.step Gedf.deadline)) (Gedf.State.InOrder priority)
        (Gedf.State.initial Instant n, []) actions) ∧
    (∀ actions, Along (recorded (Gedf.State.step Gedf.virtualDeadline))
        (Gedf.State.TakesNext priority) (Gedf.State.initial Instant n, []) actions →
      Throughout (recorded (Gedf.State.step Gedf.virtualDeadline)) (Gedf.State.InOrder priority)
        (Gedf.State.initial Instant n, []) actions) ∧
    (∀ actions, Along (recorded Cedf.State.step) (Cedf.State.TakesNext priority)
        (Cedf.State.initial n, []) actions →
      Throughout (recorded Cedf.State.step) (Cedf.State.InOrder priority)
        (Cedf.State.initial n, []) actions) :=
  ⟨Gedf.State.inOrder_of_takesNext Gedf.deadline n priority,
    Gedf.State.inOrder_of_takesNext Gedf.virtualDeadline n priority,
    Cedf.State.inOrder_of_takesNext n priority⟩

/-! ## Two workers, two packets -/

/-- Of one class and budget, the first not younger than the second. -/
def Alike (first second : Packet) : Prop :=
  first.priority = second.priority ∧ first.latencyBudget = second.latencyBudget ∧
    first.timestamp ≤ second.timestamp

def firstPacket : Packet := Packet.fromBuffer 0 0 .high [0] (Duration.fromMillis 10)

def secondPacket : Packet := Packet.fromBuffer 1 1000 .high [0] (Duration.fromMillis 10)

namespace Gedf

variable {κ : Type}

/-- One pass of the dispatcher, which finds a High packet. -/
def dispatchHigh : List (Action κ 2) :=
  [.dispatch, .dispatch, .dispatch, .notify none, .dispatch, .dispatch, .dispatch, .dispatch]

/-- A worker pops this packet. -/
def takeTask (key : Priority → Packet → κ) (id : Fin 2) (packet : Packet) : List (Action κ 2) :=
  [.run id, .pop id (.of key .high packet)]

def finishTask (id : Fin 2) : List (Action κ 2) :=
  [.run id, .tick (Duration.fromMillis 1), .run id, .forward id true]

def startBoth (key : Priority → Packet → κ) : List (Action κ 2) :=
  [.arrive firstPacket, .arrive secondPacket] ++ dispatchHigh ++ dispatchHigh ++
    takeTask key 0 firstPacket ++ takeTask key 1 secondPacket

def oneByOne (key : Priority → Packet → κ) : List (Action κ 2) :=
  [.arrive firstPacket, .arrive secondPacket] ++ dispatchHigh ++ dispatchHigh ++
    takeTask key 0 firstPacket ++ finishTask 0 ++ takeTask key 1 secondPacket ++ finishTask 1

end Gedf

namespace Cedf

/-- One pass of the dispatcher up to the next poll of the High channel. -/
def assignHigh : List (Action 2) := List.replicate 6 .dispatch

def takeTask (id : Fin 2) (packet : Packet) : List (Action 2) :=
  [.run id, .pop id (.of .high packet 0)]

def finishTask (id : Fin 2) : List (Action 2) :=
  [.run id, .run id, .tick (Duration.fromMillis 1), .run id, .run id, .run id, .run id,
    .forward id true]

def startBoth : List (Action 2) :=
  [.arrive firstPacket, .arrive secondPacket, .dispatch] ++ assignHigh ++ assignHigh ++
    takeTask 0 firstPacket ++ takeTask 1 secondPacket

def oneByOne : List (Action 2) :=
  [.arrive firstPacket, .arrive secondPacket, .dispatch] ++ assignHigh ++ assignHigh ++
    takeTask 0 firstPacket ++ finishTask 0 ++ takeTask 1 secondPacket ++ finishTask 1

end Cedf

/-- The second worker finishes first. -/
theorem second_overtakes :
    Alike firstPacket secondPacket ∧
      ¬ Throughout (recorded (Gedf.State.step Gedf.deadline)) (Gedf.State.InOrder .high)
        (Gedf.State.initial Instant 2, []) (Gedf.startBoth Gedf.deadline ++ Gedf.finishTask 1) ∧
      ¬ Throughout (recorded (Gedf.State.step Gedf.virtualDeadline)) (Gedf.State.InOrder .high)
        (Gedf.State.initial Instant 2, []) (Gedf.startBoth Gedf.virtualDeadline ++ Gedf.finishTask 1) ∧
      ¬ Throughout (recorded Cedf.State.step) (Cedf.State.InOrder .high)
        (Cedf.State.initial 2, []) (Cedf.startBoth ++ Cedf.finishTask 1) := by
  refine ⟨⟨rfl, rfl, by decide⟩, ?_, ?_, ?_⟩ <;> decide +kernel

theorem classOrder_one_by_one :
    Throughout (recorded (Gedf.State.step Gedf.deadline)) (Gedf.State.InOrder .high)
        (Gedf.State.initial Instant 2, []) (Gedf.oneByOne Gedf.deadline) ∧
      Throughout (recorded (Gedf.State.step Gedf.virtualDeadline)) (Gedf.State.InOrder .high)
        (Gedf.State.initial Instant 2, []) (Gedf.oneByOne Gedf.virtualDeadline) ∧
      Throughout (recorded Cedf.State.step) (Cedf.State.InOrder .high)
        (Cedf.State.initial 2, []) Cedf.oneByOne := by
  obtain ⟨gedf, gedfVd, cedf⟩ := classOrder_of_takesNext 2 .high
  exact ⟨gedf _ (by decide +kernel), gedfVd _ (by decide +kernel), cedf _ (by decide +kernel)⟩

end EdfPipeline
