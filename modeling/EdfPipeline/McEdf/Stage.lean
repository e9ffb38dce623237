import EdfPipeline.McEdf.Conservation
import EdfPipeline.Pipeline.Stage

/-!
# The MC-EDF scheduler as a stage

Dispatcher, workers and re-ordering stage between the input and the output
channels. Only the dispatcher takes packets and only the re-ordering stage hands
them over. The heaps belong to the threads of the workers and the buffers to the
re-ordering thread: what is in them when the thread returns is lost. The channels
stay with the scheduler.
-/

set_option autoImplicit false

namespace EdfPipeline.McEdf

open Ledger TransitionSystem

def wiring : Wiring Action where
  arrive := .arrive
  tick := .tick
  stop := .stop
  own
    | .arrive _ | .disconnect _ | .tick _ | .stop => false
    | .dispatch | .run _ | .pop _ _ | .await _ _ | .reorder | .forward _ => true

namespace State

def ends (state : State) : Ends where
  clock := state.clock
  inputs := state.inputQueues
  outputs := state.outputQueues

/-- Every packet that was taken in and not handed over, where it was seen last. -/
def inside (state : State) : Multiset (Place × Packet) :=
  (entries Place.batch (taskPackets state.dispatcher.batch) +
      entries Place.dispatcher (taskPackets state.dispatcher.single)) +
    (∑ channel, ∑ priority,
      entries (Place.edfInput channel priority) (taskPackets (state.edfInputs channel priority).queue)) +
    ((∑ channel, entries (Place.queued channel) (taskPackets (state.workers channel).queued)) +
      ∑ channel, entries (Place.hands channel) (taskPackets (state.workers channel).pc.held)) +
    (∑ channel, entries (Place.edfOutput channel) ↑(state.edfOutputs channel).queue) +
    ((∑ channel, entries (Place.buffer channel) (Reorder.buffered (state.reorder.buffers channel))) +
      entries Place.merging (Reorder.merging state.reorder.pc))

/-- A place is gone once the thread it belongs to has returned. -/
def gone (state : State) : Place → Bool
  | .queued channel => (state.workers channel).pc = .returned
  | .buffer _ => state.reorder.pc = .returned
  | _ => false

theorem inside_contents (state : State) :
    state.inside.map Prod.snd + handedAll state.outputQueues = state.contents := by
  have located : state.located = state.inside + outputEntries .sent .dropped state.outputQueues := rfl
  rw [← located_packets, located, Multiset.map_add, map_snd_outputEntries]

end State

def interface : Interface where
  State := State
  Action := Action
  Place := Place
  initial := .initial
  moves := wiring.moves State.step
  readsSockets := false
  datagram _ := none
  reads _ _ := none
  packetCount _ := 0
  running := State.running
  ends := State.ends
  inside := State.inside
  gone := State.gone

theorem EdfWorker.enter_active (worker : EdfWorker) : worker.enter ≠ .returned := by
  unfold EdfWorker.enter
  split <;> nofun

theorem EdfWorker.afterPop_active (task : EDFTask) : EdfWorker.afterPop task ≠ .returned := by
  unfold EdfWorker.afterPop
  split <;> nofun

namespace State

theorem signalled {state next : State} {signal : Signal}
    (received : wiring.receive State.step state signal = some next) :
    interface.Signalled state signal next := by
  obtain ⟨action, stepped, told⟩ := Wiring.receive_step received
  cases signal with
  | arrive priority packet =>
      obtain ⟨own, rfl⟩ := told
      simp only [wiring, step] at stepped
      split at stepped
      · cases stepped
      · cases stepped
        exact ⟨rfl, by rw [← own]; rfl, rfl, rfl⟩
  | tick elapsed =>
      cases told
      cases stepped
      exact ⟨rfl, rfl, rfl, rfl⟩
  | stop =>
      cases told
      cases stepped
      exact ⟨rfl, rfl, rfl, rfl⟩

theorem dispatch_inward {state next : State} (stepped : state.dispatch = some next) :
    state.ends.Inward (state.received .dispatch) next.ends := by
  have quiet {after : State} (nothing : state.received .dispatch = none)
      (same : after.ends = state.ends) :
      state.ends.Inward (state.received .dispatch) after.ends := by
    rw [nothing, same]
    exact .refl _
  have takes {after : State} {priority : Priority} {packet : Packet} {remaining : Channel Packet}
      (sees : state.received .dispatch = (state.inputQueues priority).queue.head?)
      (taken : (state.inputQueues priority).tryRecv = .ok (packet, remaining))
      (same : after.ends = (state.setInput priority remaining).ends) :
      state.ends.Inward (state.received .dispatch) after.ends := by
    rw [sees, (Channel.tryRecv_ok taken).1, same]
    exact ⟨rfl, .front taken, .refl _⟩
  cases place : state.dispatcher with
  | collect now highBatch =>
      simp only [dispatch, place] at stepped
      split at stepped
      · rename_i room
        split at stepped
        · rename_i taken
          cases stepped
          exact takes (by simp [received, place, room]) taken rfl
        · rename_i failed
          cases stepped
          exact quiet (by simp [received, place, Channel.tryRecv_error failed]) rfl
      · rename_i full
        cases stepped
        exact quiet (by simp [received, place, full]) rfl
  | receive priority =>
      simp only [dispatch, place] at stepped
      split at stepped
      · rename_i taken
        cases stepped
        exact takes (by simp [received, place]) taken rfl
      · rename_i failed
        cases stepped
        exact quiet (by simp [received, place, Channel.tryRecv_error failed]) rfl
  | send channels =>
      cases channels with
      | nil =>
          simp only [dispatch, place, Option.some.injEq] at stepped
          cases stepped
          exact quiet (by simp [received, place]) rfl
      | cons entry rest =>
          simp only [dispatch, place, Option.some.injEq] at stepped
          cases stepped
          exact quiet (by simp [received, place]) rfl
  | top | assign highBatch | recordDistribution channel deadlineSlack rest | deliver task =>
      simp only [dispatch, place, Option.some.injEq] at stepped
      cases stepped
      exact quiet (by simp [received, place]) rfl
  | returned => simp [dispatch, place] at stepped

theorem WorkerMove.ends_eq {state next : State} {channel : EdfChannel}
    (move : WorkerMove state channel next) : next.ends = state.ends := by
  cases move <;> rfl

theorem ReorderMove.inward {state next : State} {action : Action}
    (move : ReorderMove state action next) : state.ends.Inward none next.ends := by
  cases move with
  | forward place => exact ⟨rfl, .nothing, grown_set_trySend _ _ _ _⟩
  | begin | quit | skip | take | filled | idle | select => exact .refl _

theorem worked {state next : State} {action : Action}
    (works : wiring.work State.step state action = some next) :
    ∃ taken, interface.Worked state next taken := by
  obtain ⟨own, stepped⟩ := Wiring.work_step works
  have inward : state.ends.Inward (state.received action) next.ends := by
    cases action with
    | arrive | disconnect | tick | stop => cases own
    | dispatch => exact dispatch_inward stepped
    | run channel => exact (runWorker_move stepped).ends_eq ▸ .refl _
    | pop channel task => exact (popWorker_move stepped).ends_eq ▸ .refl _
    | await channel timeout => exact (awaitWorker_move stepped).ends_eq ▸ .refl _
    | reorder => exact (runReorder_moves stepped).inward
    | forward room => exact (forwardReorder_moves stepped).inward
  refine ⟨_, inward, ?_⟩
  exact (inside_contents next).trans
    ((step_contents stepped).trans (congrArg _ (inside_contents state).symm))

theorem enabled {state : State} {signal : Signal} (connected : Connected state.inputQueues)
    (proper : signal.Proper) : ∃ next, wiring.receive State.step state signal = some next := by
  cases signal with
  | arrive priority packet =>
      have own : packet.priority = priority := proper
      simp [Wiring.receive, wiring, own, State.step, connected priority]
  | tick elapsed => exact ⟨_, rfl⟩
  | stop => exact ⟨_, rfl⟩

/-! ## Places that are gone -/

/-- Threads return only where `running` was cleared. -/
structure Attended (state : State) : Prop where
  workers : ∀ channel, (state.workers channel).pc = .returned → state.running = false
  reorder : state.reorder.pc = .returned → state.running = false

theorem initial_attended : initial.Attended := ⟨nofun, nofun⟩

theorem Attended.setWorker {state : State} (attended : state.Attended) {channel : EdfChannel}
    {worker : EdfWorker} (returns : worker.pc = .returned → state.running = false) :
    (state.setWorker channel worker).Attended := by
  refine ⟨?_, attended.reorder⟩
  intro other returned
  by_cases same : other = channel
  · subst same
    rw [setWorker_workers] at returned
    exact returns returned
  · have unchanged : (state.setWorker channel worker).workers other = state.workers other :=
      Function.update_of_ne same _ _
    rw [unchanged] at returned
    exact attended.workers other returned

theorem RunMove.attended {state next : State} {channel : EdfChannel} (attended : state.Attended)
    (move : RunMove state channel next) : next.Attended := by
  have received (priority : Priority) (remaining : Channel EDFTask) :
      (state.setEdfInput channel priority remaining).Attended :=
    ⟨attended.workers, attended.reorder⟩
  have sent (output : Channel Packet) : (state.setEdfOutput channel output).Attended :=
    ⟨attended.workers, attended.reorder⟩
  cases move with
  | top place =>
      refine attended.setWorker ?_
      intro returned
      cases flag : state.running with
      | false => rfl
      | true =>
          simp only [flag, EdfWorker.goto, if_true] at returned
          exact absurd returned (EdfWorker.enter_active _)
  | popFifo place queue =>
      exact attended.setWorker fun returned => absurd returned (EdfWorker.afterPop_active _)
  | receiveHigh | receiveLower | putBack => exact (received _ _).setWorker (by rintro ⟨⟩)
  | output place => exact (sent _).setWorker (by rintro ⟨⟩)
  | noHigh place | lowerDone place | skipLower place | idle place | proceed place | process place
  | done place => exact attended.setWorker (by rintro ⟨⟩)
  | spin place => exact attended

theorem ReorderMove.attended {state next : State} {action : Action} (attended : state.Attended)
    (move : ReorderMove state action next) : next.Attended := by
  cases move with
  | quit place stopped => exact ⟨attended.workers, fun _ => stopped⟩
  | begin | skip | take | filled | idle | select | forward => exact ⟨attended.workers, nofun⟩

theorem step_attended {state next : State} {action : Action} (attended : state.Attended)
    (stepped : state.step action = some next) : next.Attended := by
  cases action with
  | arrive packet =>
      simp only [step] at stepped
      split at stepped
      · cases stepped
      · cases stepped
        exact ⟨attended.workers, attended.reorder⟩
  | disconnect | tick =>
      cases stepped
      exact ⟨attended.workers, attended.reorder⟩
  | stop =>
      cases stepped
      exact ⟨fun _ _ => rfl, fun _ => rfl⟩
  | dispatch =>
      obtain ⟨_, _, _, _, rfl⟩ := (dispatch_moves stepped).frame
      exact ⟨attended.workers, attended.reorder⟩
  | run channel => exact (runWorker_moves stepped).attended attended
  | pop channel task =>
      simp only [step, popWorker] at stepped
      split at stepped
      · cases stepped
        exact attended.setWorker fun returned => absurd returned (EdfWorker.afterPop_active _)
      · cases stepped
  | await channel timeout =>
      simp only [step, awaitWorker] at stepped
      split at stepped
      · split at stepped
        · cases stepped
          exact attended.setWorker (by rintro ⟨⟩)
        · cases stepped
      · cases stepped
  | reorder => exact (runReorder_moves stepped).attended attended
  | forward room => exact (forwardReorder_moves stepped).attended attended

/-- Nothing is lost as long as the threads run. -/
theorem Attended.lost_eq_zero {state : State} (attended : state.Attended)
    (running : state.running = true) : interface.lost state = 0 := by
  refine interface.lost_of_none_gone fun place => ?_
  have worker (channel : EdfChannel) : (state.workers channel).pc ≠ .returned := by
    intro returned
    exact Bool.false_ne_true ((attended.workers channel returned).symm.trans running)
  have reorder : state.reorder.pc ≠ .returned := by
    intro returned
    exact Bool.false_ne_true ((attended.reorder returned).symm.trans running)
  cases place with
  | queued channel => exact decide_eq_false (worker channel)
  | buffer channel => exact decide_eq_false reorder
  | batch | dispatcher | edfInput | hands | edfOutput | merging | sent | dropped => rfl

theorem initial_contents : interface.contents State.initial = 0 := by
  have nothing : 0 = State.initial.contents := initial_kept.conserved
  change queuedAll (fun _ => .empty) + State.initial.inside.map Prod.snd +
    handedAll State.initial.outputQueues = 0
  rw [add_assoc, inside_contents, ← nothing, queuedAll_empty fun _ => rfl, add_zero]

end State

def fed : Fed where
  toInterface := interface
  Invariant state := (∀ priority, (state.outputQueues priority).Counted) ∧ state.Attended
  initial_invariant := ⟨fun _ => OutputQueue.counted_initial, State.initial_attended⟩
  preserved invariant moved := by
    obtain ⟨_, stepped⟩ := Wiring.moves_step moved
    exact ⟨State.step_counted invariant.1 stepped, State.step_attended invariant.2 stepped⟩
  signals := State.signalled
  works _ works := State.worked works
  enabled := State.enabled
  initial_connected _ := rfl
  initial_nothing := State.initial_contents
  drops invariant := invariant.1
  silent _ _ := rfl
  uncounted _ := rfl

end EdfPipeline.McEdf
