import EdfPipeline.Edf.EndToEnd
import EdfPipeline.Pipeline.Stage

/-!
# The single EDF scheduler as a stage

The thread EDF-Processor calls `process_next` while `running` is true, and reads
the flag between two calls.
-/

set_option autoImplicit false

namespace EdfPipeline.Edf

open Ledger

/-- EDF-Processor. -/
abbrev Thread : Type := Loop State

def wiring : LoopWiring State Action where
  arrive priority packet := some (.enqueue priority packet)
  tick := .tick
  own
    | .processNext | .run | .send _ => true
    | .enqueue _ _ | .tick _ => false
  begins
    | _, .processNext => true
    | _, _ => false

/-- What is in the slots and what `process_next` has in hand. -/
def State.held (state : State) : Multiset ((Priority × Place) × Packet) :=
  ∑ priority, entries (priority, .slot) (state.packetsAt priority .slot) +
    ∑ priority, entries (priority, .hand) (state.packetsAt priority .hand)

def State.ends (state : State) : Ends where
  clock := state.clock
  inputs := state.inputQueues
  outputs := state.outputQueues

def interface : Interface where
  State := Thread
  Action := Action
  Place := Priority × Place
  initial := { scheduler := .initial, running := true }
  moves := wiring.moves State.step
  readsSockets := false
  datagram _ := none
  reads _ _ := none
  packetCount _ := 0
  running := Loop.running
  ends thread := thread.scheduler.ends
  inside thread := thread.scheduler.held
  gone _ _ := false

namespace State

/-- What a step does to the ends of the line and to the clock. -/
structure Framed (state : State) (arrived : Option (Priority × Packet)) (duration : Duration)
    (next : State) : Prop where
  clock : next.clock = state.clock + duration
  enqueued : ∀ priority, next.enqueued priority =
    state.enqueued priority ++ (arrived.bind (ofClass priority)).toList
  grown : Grown state.outputQueues next.outputQueues

theorem Framed.quiet {state next : State} (clock : next.clock = state.clock)
    (enqueued : next.enqueued = state.enqueued) (outputs : next.outputQueues = state.outputQueues) :
    state.Framed none 0 next where
  clock := clock
  enqueued priority := by
    rw [enqueued]
    exact (List.append_nil _).symm
  grown := outputs ▸ .refl _

def arrived : Action → Option (Priority × Packet)
  | .enqueue priority packet => some (priority, packet)
  | _ => none

def duration : Action → Duration
  | .tick elapsed => elapsed
  | _ => 0

theorem fill_clock (state : State) (priority : Priority) (rest : List Priority) :
    (state.fill priority rest).clock = state.clock := by
  simp only [fill]
  split
  · rfl
  · split <;> rfl

theorem select_framed (state : State) : state.Framed none 0 state.select := by
  unfold select
  split
  · exact .quiet rfl rfl rfl
  · split <;> exact .quiet rfl rfl rfl

theorem runStep_framed {state next : State} (stepped : state.step .run = some next) :
    state.Framed none 0 next := by
  simp only [step] at stepped
  split at stepped
  · rename_i priority rest place
    cases stepped
    have fills := fill_fills state priority rest
    exact .quiet (fill_clock state priority rest) fills.enqueued fills.outputs
  · cases stepped
    exact select_framed state
  · split at stepped
    · cases stepped
      exact .quiet rfl rfl rfl
    · cases stepped
      exact .quiet rfl rfl rfl
  · cases stepped

theorem step_framed {state next : State} {action : Action} (stepped : state.step action = some next) :
    state.Framed (arrived action) (duration action) next := by
  cases action with
  | enqueue priority packet =>
      simp only [step] at stepped
      split at stepped
      · cases stepped
        refine ⟨rfl, ?_, .refl _⟩
        intro other
        by_cases same : priority = other
        · subst same
          simp [arrived, ofClass]
        · simp [arrived, ofClass, same, PriorityTable.set_other (Ne.symm same)]
      · cases stepped
  | tick elapsed =>
      cases stepped
      exact ⟨rfl, fun _ => (List.append_nil _).symm, .refl _⟩
  | processNext =>
      simp only [step] at stepped
      split at stepped
      · cases stepped
        exact .quiet rfl rfl rfl
      · cases stepped
  | run => exact runStep_framed stepped
  | send room =>
      simp only [step] at stepped
      split at stepped
      · rename_i packet place
        cases stepped
        exact ⟨rfl, fun _ => (List.append_nil _).symm, grown_set_trySend _ _ _ _⟩
      · cases stepped

/-- What is on the channels, in the scheduler and handed over is what was enqueued. -/
theorem Kept.enqueued_total {state : State} (kept : state.Kept) :
    queuedAll state.inputQueues + state.held.map Prod.snd + handedAll state.outputQueues =
      ∑ priority, ↑(state.enqueued priority) := by
  have line (priority : Priority) : (↑(state.enqueued priority) : Multiset Packet) =
      ↑(state.inputQueues priority).queue +
        (state.packetsAt priority .slot + state.packetsAt priority .hand) +
          ↑(state.outputQueues priority).handed := by
    rw [kept.line priority, ← Multiset.coe_add, ← Multiset.coe_add, ← Multiset.coe_add]
    change _ + (state.packetsAt priority .hand + (state.packetsAt priority .slot + _)) = _
    abel
  simp only [line, Finset.sum_add_distrib, held, Multiset.map_add, map_snd_sum_entries]
  rfl

end State

/-- What the thread does is told from its ends, `stop` included. -/
theorem framed {thread next : Thread} {action : Signal ⊕ Action}
    (moved : wiring.moves State.step thread action = some next) :
    thread.scheduler.Framed (interface.entered thread action) (elapsed action) next.scheduler := by
  rcases LoopWiring.moves_behind moved with ⟨own, found, stepped, _⟩ | ⟨rfl, rfl⟩
  · have framed := State.step_framed stepped
    cases action with
    | inl signal =>
        cases signal with
        | arrive priority packet =>
            cases found
            exact framed
        | tick elapsed =>
            cases found
            exact framed
        | stop => cases found
    | inr action =>
        simp only [LoopWiring.behind] at found
        split at found
        · rename_i enabled
          cases found
          cases own with
          | enqueue | tick => cases enabled.1
          | processNext | run | send => exact framed
        · cases found
  · exact .quiet rfl rfl rfl

theorem thread_kept {thread next : Thread} {action : Signal ⊕ Action}
    (kept : thread.scheduler.Kept) (moved : wiring.moves State.step thread action = some next) :
    next.scheduler.Kept := LoopWiring.kept State.step_kept kept moved

/-- A packet of the channel's class is always let in. -/
theorem accepts (thread : Thread) {signal : Signal} (proper : signal.Proper) :
    ∃ next, wiring.moves State.step thread (.inl signal) = some next := by
  cases signal with
  | arrive priority packet =>
      have own : packet.priority = priority := proper
      simp [LoopWiring.moves, LoopWiring.behind, wiring, State.step, own]
  | tick elapsed => exact ⟨_, rfl⟩
  | stop => exact ⟨_, rfl⟩

def stage : Stage where
  toInterface := interface
  Kept thread := thread.scheduler.Kept
  initial_kept := State.initial_kept
  moves_kept := thread_kept
  initial_empty := State.initial_kept.enqueued_total.trans (by simp [State.initial])
  conserves := by
    intro thread action next kept moved
    refine (thread_kept kept moved).enqueued_total.trans ?_
    refine Eq.trans ?_ (congrArg _ kept.enqueued_total.symm)
    rw [← interface.entered_snd, ← sum_append_ofClass]
    exact Finset.sum_congr rfl fun priority _ =>
      congrArg Multiset.ofList ((framed moved).enqueued priority)
  grows _ moved := (framed moved).grown
  counted kept := kept.counted
  accepts _ proper _ := accepts _ proper
  ticks _ moved := (framed moved).clock
  passive _ _ _ := rfl
  buffers made := by cases made
  initial_count := rfl
  numbers _ := by simp [interface]

/-- One thread takes the packets of a class in order and hands them over in order. -/
def lineStage : LineStage where
  toStage := stage
  line thread := thread.scheduler.enqueued
  initial_line _ := rfl
  extends_line _ moved := (framed moved).enqueued
  handed_line kept priority := by
    rw [kept.line priority]
    exact List.prefix_append _ _

def classStage (registrations : List Registration) : ClassStage registrations where
  toStage := stage
  budget _ made := by cases made
  own kept priority packet handed :=
    kept.classes priority packet ((lineStage.handed_line kept priority).subset handed)

end EdfPipeline.Edf
