import EdfPipeline.Cedf.Conservation
import EdfPipeline.Pipeline.Stage

/-!
# The C-EDF scheduler as a stage

Dispatcher and workers between the input and the output channels. Workers take
packets past the dispatcher, so any of them may be the one that takes.
-/

set_option autoImplicit false

namespace EdfPipeline.Cedf

open Ledger TransitionSystem

variable {n : Nat}

def wiring (n : Nat) : Wiring (Action n) where
  arrive := .arrive
  tick := .tick
  stop := .stop
  own
    | .arrive _ | .disconnect _ | .tick _ | .stop => false
    | .dispatch | .run _ | .pop _ _ | .forward _ _ => true

namespace State

def ends (state : State n) : Ends where
  clock := state.clock
  inputs := state.inputQueues
  outputs := state.outputQueues

/-- What the dispatcher, the heaps and the workers hold. -/
def held (state : State n) : Multiset (Place n × Packet) :=
  entries .dispatcher (state.dispatcher.items.map Prod.snd) +
    ∑ id, entries (.heap id) ((heapItems (state.queues id).heap).map Prod.snd) +
      ∑ id, entries (.hands id) ((state.workers id).items.map Prod.snd)

theorem held_items (state : State n) :
    state.held.map Prod.snd + handedAll state.outputQueues = state.items.map Prod.snd := by
  simp only [held, items, Multiset.map_add, map_snd_entries, map_snd_sum, map_snd_handedItems]

end State

def interface (n : Nat) : Interface where
  State := State n
  Action := Action n
  Place := Place n
  initial := .initial n
  moves := (wiring n).moves State.step
  readsSockets := false
  datagram _ := none
  reads _ _ := none
  packetCount _ := 0
  running := State.running
  ends := State.ends
  inside := State.held
  gone _ _ := false

namespace State

theorem signalled {state next : State n} {signal : Signal}
    (received : (wiring n).receive State.step state signal = some next) :
    (interface n).Signalled state signal next := by
  obtain ⟨action, stepped, told⟩ := Wiring.receive_step received
  cases signal with
  | arrive priority packet =>
      obtain ⟨own, rfl⟩ := told
      cases step_moves stepped with
      | arrive packet connected => exact ⟨rfl, by rw [← own]; rfl, rfl, rfl⟩
  | tick elapsed =>
      cases told
      cases stepped
      exact ⟨rfl, rfl, rfl, rfl⟩
  | stop =>
      cases told
      cases stepped
      exact ⟨rfl, rfl, rfl, rfl⟩

/-- A step that takes nothing and leaves the ends alone. -/
theorem inward_quiet {state next : State n} {action : Action n}
    (quiet : state.received action = none) (same : next.ends = state.ends) :
    state.ends.Inward ((state.received action).map Prod.snd) next.ends := by
  rw [quiet, same]
  exact .refl _

theorem inward_takes {state next : State n} {action : Action n} {priority : Priority}
    {packet : Packet} {remaining : Channel Packet}
    (sees : state.received action = some (priority, packet))
    (taken : (state.inputQueues priority).tryRecv = .ok (packet, remaining))
    (same : next.ends = (state.setInput priority remaining).ends) :
    state.ends.Inward ((state.received action).map Prod.snd) next.ends := by
  rw [sees, same]
  exact ⟨rfl, .front taken, .refl _⟩

theorem DispatchMove.inward {state next : State n} (move : DispatchMove state next) :
    state.ends.Inward ((state.received .dispatch).map Prod.snd) next.ends := by
  cases move with
  | takeHigh place taken | takeLower place taken =>
      exact inward_takes (by simp [received, place, front_ok taken]) taken rfl
  | noHigh place failed | skip place failed =>
      exact inward_quiet (by simp [received, place, front_error failed]) rfl
  | top place | lowerDone place | scan place | keep place | assign place =>
      exact inward_quiet (by simp [received, place]) rfl

theorem WorkerMove.inward {state next : State n} {id : Fin n} (move : WorkerMove state id next) :
    state.ends.Inward ((state.received (.run id)).map Prod.snd) next.ends := by
  cases move with
  | guard place guarding guarding' empty =>
      subst place
      exact inward_quiet (received_none empty) rfl
  | slice place processes processes' empty =>
      subst place
      exact inward_quiet (received_none empty) rfl
  | guardReceive place taken | receive place taken =>
      exact inward_takes (by simp [State.received, place, front_ok taken]) taken rfl
  | top place | idle place | guardReceived place | guardDisplace place | process place
  | received place | displace place | restart place | done place | finish place | complete place
  | record place =>
      exact inward_quiet (by simp [State.received, place]) rfl

/-- What holds of every recorded run, without the run. -/
def Invariant (state : State n) : Prop := ∃ past, Kept (state, past)

theorem Invariant.step {state next : State n} {action : Action n} (invariant : state.Invariant)
    (stepped : state.step action = some next) : next.Invariant := by
  obtain ⟨past, kept⟩ := invariant
  exact ⟨_, step_kept kept (recorded_eq_some.mpr ⟨stepped, rfl⟩)⟩

theorem worked {state next : State n} {action : Action n} (invariant : state.Invariant)
    (works : (wiring n).work State.step state action = some next) :
    ∃ taken, (interface n).Worked state next taken := by
  obtain ⟨own, stepped⟩ := Wiring.work_step works
  obtain ⟨past, kept⟩ := invariant
  have inward : state.ends.Inward ((state.received action).map Prod.snd) next.ends := by
    cases step_moves stepped with
    | arrive | disconnect | tick | stop => cases own
    | dispatch move => exact move.inward
    | run move => exact move.inward
    | pop => exact .refl _
    | forward place => exact ⟨rfl, .nothing, grown_set_trySend _ _ _ _⟩
  have grown : next.items.map Prod.snd =
      ((state.received action).map Prod.snd).elim 0 singleton + state.items.map Prod.snd := by
    rw [(step_flow stepped).items kept.aligned, Multiset.map_add]
    cases state.received action <;> rfl
  refine ⟨_, inward, ?_⟩
  exact (held_items next).trans (grown.trans (congrArg _ (held_items state).symm))

theorem enabled {state : State n} {signal : Signal} (connected : Connected state.inputQueues)
    (proper : signal.Proper) :
    ∃ next, (wiring n).receive State.step state signal = some next := by
  cases signal with
  | arrive priority packet =>
      have own : packet.priority = priority := proper
      simp [Wiring.receive, wiring, own, State.step, connected priority]
  | tick elapsed => exact ⟨_, rfl⟩
  | stop => exact ⟨_, rfl⟩

theorem initial_contents (n : Nat) : (interface n).contents (State.initial n) = 0 := by
  have nothing : 0 = (State.initial n).items := (State.initial_kept n).conserved
  change queuedAll (fun _ => .empty) + (State.initial n).held.map Prod.snd +
    handedAll (State.initial n).outputQueues = 0
  rw [add_assoc, held_items, ← nothing, queuedAll_empty fun _ => rfl, Multiset.map_zero, add_zero]

end State

/-- The scheduler with any number of workers. -/
def fed (n : Nat) : Fed where
  toInterface := interface n
  Invariant := State.Invariant
  initial_invariant := ⟨[], State.initial_kept n⟩
  preserved invariant moved := by
    obtain ⟨_, stepped⟩ := Wiring.moves_step moved
    exact invariant.step stepped
  signals := State.signalled
  works := State.worked
  enabled := State.enabled
  initial_connected _ := rfl
  initial_nothing := State.initial_contents n
  drops invariant priority := by
    obtain ⟨past, kept⟩ := invariant
    exact kept.counted priority
  silent _ _ := rfl
  uncounted _ := rfl

def classStage (registrations : List Registration) (n : Nat) : ClassStage registrations :=
  (fed n).toClassStage registrations (by
    rintro state ⟨past, kept⟩
    exact kept.routed.own)

end EdfPipeline.Cedf
