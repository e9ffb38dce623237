import EdfPipeline.Cedf.Moves

/-!
# Displacement during processing

The checks made while a task is processed go by the class the step began with.
Once a more urgent packet has displaced that task, the next check may displace
the urgent packet by one of its own class or a lower one. This happens exactly
when a check polls a class that is not above the running task and finds a
packet.
-/

set_option autoImplicit false

namespace EdfPipeline.Cedf

theorem Pc.Guarding.displacing {job : Job} {pc : Pc} (guarding : pc.Guarding job) :
    pc.displacing = none := by
  cases guarding <;> rfl

theorem Pc.Processes.displacing {job : Job} {processing : Processing} {pc : Pc}
    (processes : pc.Processes job processing) : pc.displacing = none := by
  cases processes <;> rfl

namespace State

variable {n : Nat}

/-- Every packet received to displace a running task is of a strictly higher
class. -/
def DisplacesUpward (state : State n) : Prop :=
  ∀ id, ∀ displaced ∈ (state.workers id).displacing, displaced.2.Above displaced.1

instance (state : State n) : Decidable state.DisplacesUpward :=
  inferInstanceAs (Decidable (∀ id, ∀ displaced ∈ (state.workers id).displacing, _))

/-- A check that polls a class not above that of the running task finds no
packet. -/
def PollsAbove (state : State n) : Action n → Prop
  | .run id =>
      match state.workers id with
      | .poll job _ priority =>
          priority.Above job.taskToProcess.priority ∨ (state.inputQueues priority).queue = []
      | _ => True
  | _ => True

def displacesNext (state : State n) (id : Fin n) : Option (Priority × Priority) :=
  match state.workers id with
  | .poll job _ priority =>
      if (state.inputQueues priority).queue = [] then none
      else some (job.taskToProcess.priority, priority)
  | .received job _ priority _ => some (job.taskToProcess.priority, priority)
  | _ => none

/-- A worker's step moves that worker alone, and only a packet it receives in a
check makes it displace anything. -/
theorem WorkerMove.displacing {state next : State n} {id : Fin n} (move : WorkerMove state id next) :
    ∃ pc, next.workers = Function.update state.workers id pc ∧
      pc.displacing = state.displacesNext id := by
  cases move with
  | receive place taken =>
      rename_i priority packet remaining
      have filled : (state.inputQueues priority).queue ≠ [] := by
        rw [(Channel.tryRecv_ok taken).1]
        exact List.cons_ne_nil _ _
      refine ⟨_, rfl, ?_⟩
      simp only [displacesNext, place, if_neg filled, Pc.displacing]
  | received place =>
      refine ⟨_, rfl, ?_⟩
      simp only [displacesNext, place, Pc.displacing, QueuedTask.of]
  | guard place guarding guarding' empty =>
      refine ⟨_, rfl, guarding'.displacing.trans ?_⟩
      cases guarding <;> simp only [displacesNext, place]
  | slice place processes processes' empty unfinished =>
      refine ⟨_, rfl, processes'.displacing.trans ?_⟩
      cases processes with
      | poll priority => simp only [displacesNext, place, if_pos (empty priority rfl)]
      | busy | check | weigh now => simp only [displacesNext, place]
  | top place =>
      refine ⟨_, rfl, ?_⟩
      simp only [displacesNext, place]
      split <;> rfl
  | idle place | guardReceive place | guardReceived place | guardDisplace place | process place
  | displace place | restart place | done place | finish place | complete place | record place =>
      exact ⟨_, rfl, by simp only [displacesNext, place, Pc.displacing]⟩

theorem displacesUpward_update {state next : State n} {id : Fin n} {pc : Pc}
    (upward : state.DisplacesUpward)
    (moved : next.workers = Function.update state.workers id pc) :
    next.DisplacesUpward ↔ ∀ displaced ∈ pc.displacing, displaced.2.Above displaced.1 := by
  constructor
  · intro after displaced here
    refine after id displaced ?_
    rwa [moved, Function.update_self]
  · intro here other displaced there
    rw [moved] at there
    by_cases same : other = id
    · rw [same, Function.update_self] at there
      exact here displaced there
    · rw [Function.update_of_ne same] at there
      exact upward other displaced there

theorem WorkerMove.upward {state next : State n} {id : Fin n} (move : WorkerMove state id next)
    (upward : state.DisplacesUpward) : next.DisplacesUpward ↔ state.PollsAbove (.run id) := by
  obtain ⟨pc, moved, displacing⟩ := move.displacing
  rw [displacesUpward_update upward moved, displacing]
  cases place : state.workers id with
  | poll job processing priority =>
      simp only [displacesNext, PollsAbove, place]
      by_cases empty : (state.inputQueues priority).queue = []
      · simp [empty]
      · simp [empty]
  | received job processing priority packet =>
      have known := upward id (job.taskToProcess.priority, priority) (by rw [place]; rfl)
      simp only [displacesNext, PollsAbove, place]
      simpa using known
  | _ => simp [displacesNext, PollsAbove, place]

theorem DisplacesUpward.of_workers {state next : State n} (upward : state.DisplacesUpward)
    (same : next.workers = state.workers) : next.DisplacesUpward := by
  intro id
  rw [same]
  exact upward id

theorem DisplacesUpward.of_move {state next : State n} {id : Fin n} {pc : Pc}
    (upward : state.DisplacesUpward) (moved : next.workers = Function.update state.workers id pc)
    (quiet : pc.displacing = none) : next.DisplacesUpward :=
  (displacesUpward_update upward moved).mpr (by simp [quiet])

theorem step_upward {state next : State n} {action : Action n} (upward : state.DisplacesUpward)
    (stepped : state.step action = some next) :
    next.DisplacesUpward ↔ state.PollsAbove action := by
  cases step_moves stepped with
  | run move => exact move.upward upward
  | dispatch move =>
      obtain ⟨_, _, _, _, rfl⟩ := move.frame
      exact iff_of_true (upward.of_workers rfl) trivial
  | arrive | disconnect | tick | stop => exact iff_of_true (upward.of_workers rfl) trivial
  | pop | forward => exact iff_of_true (upward.of_move rfl rfl) trivial

theorem pollsAbove_of_disabled {state : State n} {action : Action n}
    (disabled : state.step action = none) : state.PollsAbove action := by
  cases action with
  | run id =>
      cases place : state.workers id with
      | poll job processing priority =>
          simp only [step, runWorker, place] at disabled
          split at disabled <;> cases disabled
      | _ => simp [PollsAbove, place]
  | _ => trivial

theorem initial_upward (n : Nat) : (initial n).DisplacesUpward := by
  intro id displaced here
  cases here

end State

/-- In a run with any number of workers, tasks being processed are displaced by
packets of strictly higher classes only, exactly when no check that polls a
class not above the running task's finds a packet. -/
theorem displacesUpward_iff_polls_above (n : Nat) (actions : List (Action n)) :
    TransitionSystem.Throughout State.step State.DisplacesUpward (State.initial n) actions ↔
      TransitionSystem.Along State.step State.PollsAbove (State.initial n) actions :=
  @TransitionSystem.throughout_iff_along _ _ State.step (fun _ => True) State.DisplacesUpward
    State.PollsAbove (fun _ _ => trivial) (fun _ => State.step_upward)
    State.pollsAbove_of_disabled _ trivial (State.initial_upward n) actions

/-! ## Two High packets during one Medium task -/

def mediumPacket : Packet := Packet.fromBuffer 0 0 .medium [0] (Duration.fromMillis 10)

def firstHigh : Packet := Packet.fromBuffer 1 0 .high [0] (Duration.fromMillis 1)

def secondHigh : Packet := Packet.fromBuffer 2 10000 .high [0] (Duration.fromMillis 1)

def startMedium : List (Action 1) :=
  .arrive mediumPacket :: List.replicate 6 .dispatch ++
    [.run 0, .pop 0 (.of .medium mediumPacket 0), .run 0, .run 0, .run 0]

def displaceFor (packet : Packet) : List (Action 1) :=
  [.arrive packet, .tick (Duration.fromMicros 10)] ++ List.replicate 7 (.run 0)

/-- The second check puts the first High task back. -/
theorem high_displaced_by_high :
    ¬ TransitionSystem.Throughout State.step State.DisplacesUpward (State.initial 1)
        (startMedium ++ displaceFor firstHigh ++ displaceFor secondHigh) ∧
      (run (State.initial 1) (startMedium ++ displaceFor firstHigh ++ displaceFor secondHigh)).map
          (fun state => (state.queues 0).heap.map fun task => task.packet) =
        some [firstHigh, mediumPacket] := by
  decide +kernel

end EdfPipeline.Cedf
