import EdfPipeline.Gedf.Conservation
import EdfPipeline.Pipeline.Stage

/-!
# The shared run queue as a stage

The dispatcher and the workers between the input and the output channels, for
both keys.
-/

set_option autoImplicit false

namespace EdfPipeline.Gedf

open Ledger TransitionSystem

variable {κ : Type} {n : Nat}

def wiring (κ : Type) (n : Nat) : Wiring (Action κ n) where
  arrive := .arrive
  tick := .tick
  stop := .stop
  own
    | .arrive _ | .disconnect _ | .tick _ | .stop => false
    | .dispatch | .notify _ | .run _ | .pop _ _ | .wake _ | .forward _ _ => true

namespace State

def ends (state : State κ n) : Ends where
  clock := state.clock
  inputs := state.inputQueues
  outputs := state.outputQueues

/-- What the dispatcher, the heap and the workers hold. -/
def held (state : State κ n) : Multiset (Place n × Packet) :=
  entries .dispatcher (packets state.dispatcher.tasks) + entries .heap (packets state.heap) +
    ∑ id, entries (.hands id) (packets (state.workers id).tasks)

theorem held_contents (state : State κ n) :
    state.held.map Prod.snd + handedAll state.outputQueues = state.contents := by
  simp only [held, contents, Multiset.map_add, map_snd_entries, map_snd_sum_entries]

end State

variable [LinearOrder κ]

def interface (key : Priority → Packet → κ) (n : Nat) : Interface where
  State := State κ n
  Action := Action κ n
  Place := Place n
  initial := .initial κ n
  moves := (wiring κ n).moves (State.step key)
  readsSockets := false
  datagram _ := none
  reads _ _ := none
  packetCount _ := 0
  running := State.running
  ends := State.ends
  inside := State.held
  gone _ _ := false

namespace State

variable {key : Priority → Packet → κ}

theorem signalled {state next : State κ n} {signal : Signal}
    (received : (wiring κ n).receive (State.step key) state signal = some next) :
    (interface key n).Signalled state signal next := by
  obtain ⟨action, stepped, told⟩ := Wiring.receive_step received
  cases signal with
  | arrive priority packet =>
      obtain ⟨own, rfl⟩ := told
      cases step_moves stepped with
      | arrive packet connected => exact ⟨rfl, by rw [← own]; rfl, rfl, rfl⟩
  | tick elapsed =>
      cases told
      cases stepped
      exact ⟨rfl, rfl, rfl, rfl⟩
  | stop =>
      cases told
      cases stepped
      exact ⟨rfl, rfl, rfl, rfl⟩

theorem DispatchMove.inward {state next : State κ n} (move : DispatchMove key state next) :
    state.ends.Inward ((state.received .dispatch).map Prod.snd) next.ends := by
  have quiet (nothing : state.received .dispatch = none) (same : next.ends = state.ends) :
      state.ends.Inward ((state.received .dispatch).map Prod.snd) next.ends := by
    rw [nothing, same]
    exact .refl _
  cases move with
  | @take priority rest packet remaining place taken =>
      have sees : (state.received .dispatch).map Prod.snd = some packet := by
        simp [received, place, (Channel.tryRecv_ok taken).1]
      rw [sees]
      exact ⟨rfl, .front taken, .refl _⟩
  | skip place failed =>
      exact quiet (by simp [received, place, Channel.tryRecv_error failed]) rfl
  | top place | pass place | push place free | wakeAll place =>
      exact quiet (by simp [received, place]) rfl

omit [LinearOrder κ] in
theorem WorkerMove.ends_eq {state next : State κ n} {id : Fin n} (move : WorkerMove state id next) :
    next.ends = state.ends := by
  cases move <;> rfl

theorem worked {state next : State κ n} {action : Action κ n}
    (works : (wiring κ n).work (State.step key) state action = some next) :
    ∃ taken, (interface key n).Worked state next taken := by
  obtain ⟨own, stepped⟩ := Wiring.work_step works
  have inward : state.ends.Inward ((state.received action).map Prod.snd) next.ends := by
    cases step_moves stepped with
    | arrive | disconnect | tick | stop => cases own
    | dispatch move => exact move.inward
    | run move => exact move.ends_eq ▸ .refl _
    | notifyOne | notifyNobody | pop | wake => exact .refl _
    | forward place => exact ⟨rfl, .nothing, grown_set_trySend _ _ _ _⟩
  refine ⟨_, inward, ?_⟩
  exact (held_contents next).trans
    ((step_flow stepped).contents.trans (congrArg _ (held_contents state).symm))

/-- The invariant of recorded runs, without the run. -/
def Invariant (key : Priority → Packet → κ) (state : State κ n) : Prop :=
  ∃ past, Kept key (state, past)

theorem Invariant.step {state next : State κ n} {action : Action κ n}
    (invariant : state.Invariant key) (stepped : state.step key action = some next) :
    next.Invariant key := by
  obtain ⟨past, kept⟩ := invariant
  exact ⟨_, step_kept kept (recorded_eq_some.mpr ⟨stepped, rfl⟩)⟩

theorem enabled {state : State κ n} {signal : Signal} (connected : Connected state.inputQueues)
    (proper : signal.Proper) :
    ∃ next, (wiring κ n).receive (State.step key) state signal = some next := by
  cases signal with
  | arrive priority packet =>
      have own : packet.priority = priority := proper
      simp [Wiring.receive, wiring, own, State.step, connected priority]
  | tick elapsed => exact ⟨_, rfl⟩
  | stop => exact ⟨_, rfl⟩

theorem initial_contents (key : Priority → Packet → κ) :
    (interface key n).contents (State.initial κ n) = 0 := by
  have nothing : 0 = (State.initial κ n).contents := (State.initial_kept key).conserved
  change queuedAll (fun _ => .empty) + (State.initial κ n).held.map Prod.snd +
    handedAll (State.initial κ n).outputQueues = 0
  rw [add_assoc, held_contents, ← nothing, queuedAll_empty fun _ => rfl, add_zero]

end State

/-- The scheduler with any key and any number of workers. -/
def fed (key : Priority → Packet → κ) (n : Nat) : Fed where
  toInterface := interface key n
  Invariant := State.Invariant key
  initial_invariant := ⟨[], State.initial_kept key⟩
  preserved invariant moved := by
    obtain ⟨_, stepped⟩ := Wiring.moves_step moved
    exact invariant.step stepped
  signals := State.signalled
  works _ works := State.worked works
  enabled := State.enabled
  initial_connected _ := rfl
  initial_nothing := State.initial_contents key
  drops invariant priority := by
    obtain ⟨past, kept⟩ := invariant
    exact kept.routed.counted priority
  silent _ _ := rfl
  uncounted _ := rfl

def classStage (registrations : List Registration) (key : Priority → Packet → κ) (n : Nat) :
    ClassStage registrations :=
  (fed key n).toClassStage registrations (by
    rintro state ⟨past, kept⟩
    exact kept.routed.own)

end EdfPipeline.Gedf
