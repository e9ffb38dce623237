import EdfPipeline.Egress.Drain
import EdfPipeline.Pipeline.Stage
import EdfPipeline.Metrics.Isolation
import EdfPipeline.Metrics.Statistics

/-!
# The flow through the egress

The packets of a class that were received, followed by those that wait, are the
ones that arrived, in order.
-/

set_option autoImplicit false

namespace EdfPipeline

namespace Egress.State

def dequeuedOf (state : State) (priority : Priority) : List Packet :=
  state.dequeued.filterMap (ofClass priority)

def flow (state : State) (priority : Priority) : List Packet :=
  state.dequeuedOf priority ++ state.queue priority

def arriving : Action → Option (Priority × Packet)
  | .arrive priority packet => some (priority, packet)
  | _ => none

def elapsed : Action → Duration
  | .tick elapsed => elapsed
  | _ => 0

structure Passes (state : State) (action : Action) (next : State) : Prop where
  clock : next.clock = state.clock + elapsed action
  flow : ∀ priority,
    next.flow priority = state.flow priority ++ ((arriving action).bind (ofClass priority)).toList
  connected : (∀ priority, action ≠ .disconnect priority) → Connected state.receivers →
    Connected next.receivers

theorem Passes.quiet {state next : State} {action : Action} (silent : arriving action = none)
    (clock : next.clock = state.clock + elapsed action) (receivers : next.receivers = state.receivers)
    (dequeued : next.dequeued = state.dequeued) : state.Passes action next where
  clock := clock
  flow priority := by
    simp only [State.flow, dequeuedOf, queue, silent, receivers, dequeued, Option.bind_none,
      Option.toList_none, List.append_nil]
  connected _ := receivers ▸ id

theorem queue_send (receivers : PriorityTable (Channel Packet)) (priority other : Priority)
    (packet : Packet) :
    ((receivers.set priority ((receivers priority).send packet)) other).queue =
      (receivers other).queue ++ (ofClass other (priority, packet)).toList := by
  by_cases same : priority = other
  · subst same
    simp [ofClass, Channel.send]
  · simp [ofClass, same, PriorityTable.set_other (Ne.symm same)]

/-- Receiving moves the front of a queue to the packets received. -/
theorem receive_flow {state : State} {rest : List Priority} {priority : Priority} {packet : Packet}
    {remaining : Channel Packet} (received : (state.receivers priority).tryRecv = .ok (packet, remaining))
    (other : Priority) :
    (state.receive rest priority packet remaining).flow other = state.flow other := by
  have waited : state.queue priority = packet :: remaining.queue := (Channel.tryRecv_ok received).1
  rw [flow, flow, receive_queue, dequeuedOf, dequeuedOf, receive, List.filterMap_append]
  by_cases same : other = priority
  · subst same
    rw [if_pos rfl, waited]
    simp [ofClass]
  · rw [if_neg same]
    simp [ofClass, Ne.symm same]

theorem recordPacket_clock (state : State) (rest : List Priority) (packet : Packet)
    (event : MetricsEvent) : (state.recordPacket rest packet event).clock = state.clock := by
  simp only [recordPacket]
  split <;> rfl

theorem step_passes {state next : State} {action : Action} (stepped : state.step action = some next) :
    state.Passes action next := by
  cases step_moves stepped with
  | @arrive priority packet connected =>
      refine ⟨rfl, ?_, ?_⟩
      · intro other
        simp only [flow, dequeuedOf, queue, arriving, Option.bind_some, queue_send, List.append_assoc]
      · intro _ allConnected
        exact Signal.connected_into allConnected (.arrive priority packet)
  | disconnect priority =>
      refine ⟨rfl, ?_, fun other => absurd rfl (other priority)⟩
      intro other
      simp only [flow, dequeuedOf, queue, arriving, Option.bind_none, Option.toList_none,
        List.append_nil, PriorityTable.set_apply]
      split
      · rename_i same
        rw [same]
      · rfl
  | receive place received =>
      refine ⟨rfl, ?_, ?_⟩
      · intro other
        exact (receive_flow received other).trans (List.append_nil _).symm
      · intro _ allConnected
        exact (Takes.front received).connected allConnected
  | record place room =>
      obtain ⟨_, _, receivers, dequeued, _⟩ := recordPacket_frame state _ _ _
      exact .quiet rfl (recordPacket_clock _ _ _ _) receivers dequeued
  | tick | stop | takeEvent | enter | quit | leave | skip | close | measure | judge | sent | wouldBlock
  | failed => exact .quiet rfl rfl rfl rfl

/-- The packet a step receives, with the class of its channel. -/
def receives (state : State) : Action → Option (Priority × Packet)
  | .run =>
      match state.pc with
      | .poll (priority :: _) =>
          match (state.receivers priority).tryRecv with
          | .ok (packet, _) => some (priority, packet)
          | .error _ => none
      | _ => none
  | _ => none

theorem step_receives {state next : State} {action : Action} (stepped : state.step action = some next) :
    next.dequeued = state.dequeued ++ (state.receives action).toList := by
  have quiet (silent : state.receives action = none) (dequeued : next.dequeued = state.dequeued) :
      next.dequeued = state.dequeued ++ (state.receives action).toList := by
    rw [silent, dequeued, Option.toList_none, List.append_nil]
  cases step_moves stepped with
  | receive place received => simp only [receives, place, received, receive, Option.toList_some]
  | skip place failed | close place failed => exact quiet (by simp only [receives, place, failed]) rfl
  | record place room =>
      obtain ⟨_, _, _, dequeued, _⟩ := recordPacket_frame state _ _ _
      exact quiet (by simp only [receives, place]) dequeued
  | enter place | quit place | leave place | measure place | judge place =>
      exact quiet (by simp only [receives, place]) rfl
  | arrive | disconnect | tick | stop | takeEvent | sent | wouldBlock | failed => exact quiet rfl rfl

end Egress.State

/-! ## The egress, Metrics-Processor and the statistics thread -/

namespace MetricsCollector

/-- A step of Egress-DRR, one of Metrics-Processor, or a call of `send_current_metrics`. -/
inductive Work where
  | run
  | sendTo (outcome : Egress.SendOutcome)
  | processor
  | publish

/-- `send_current_metrics` takes the lock that Metrics-Processor holds for a batch. -/
def publish (state : State) : Option State :=
  match state.processor with
  | .update _ => none
  | .collect | .returned =>
      some { state with metrics := (sendCurrentMetrics Binary64.nearest state.metrics state.egress.clock).1 }

theorem publish_some {state next : State} (published : publish state = some next) :
    next = { state with metrics := (sendCurrentMetrics Binary64.nearest state.metrics state.egress.clock).1 } := by
  unfold publish at published
  split at published <;> cases published <;> rfl

/-- What the surroundings tell the threads: packets arrive, time passes and `running` is
cleared. The pipeline keeps a sender of every channel, so none is disconnected. -/
def moves (state : State) : Signal ⊕ Work → Option State
  | .inl (.arrive priority packet) => state.step (.egress (.arrive priority packet))
  | .inl (.tick elapsed) => state.step (.egress (.tick elapsed))
  | .inl .stop => state.step (.egress .stop)
  | .inr .run => state.step (.egress .run)
  | .inr (.sendTo outcome) => state.step (.egress (.sendTo outcome))
  | .inr .processor => state.step .processor
  | .inr .publish => publish state

/-- The step of the egress this is. -/
def egressAction : Signal ⊕ Work → Option Egress.Action
  | .inl (.arrive priority packet) => some (.arrive priority packet)
  | .inl (.tick elapsed) => some (.tick elapsed)
  | .inl .stop => some .stop
  | .inr .run => some .run
  | .inr (.sendTo outcome) => some (.sendTo outcome)
  | .inr .processor | .inr .publish => none

inductive Moved (state : State) : Signal ⊕ Work → State → Prop where
  | egress {action : Signal ⊕ Work} {inner : Egress.Action} {next : State}
      (told : egressAction action = some inner) (stepped : state.step (.egress inner) = some next) :
      Moved state action next
  | processor {next : State} (stepped : state.processorStep = some next) :
      Moved state (.inr .processor) next
  | publish {next : State} (published : publish state = some next) : Moved state (.inr .publish) next

theorem moves_moved {state next : State} {action : Signal ⊕ Work} (moved : moves state action = some next) :
    Moved state action next := by
  cases action with
  | inl signal => cases signal <;> exact .egress rfl moved
  | inr work =>
      cases work with
      | run | sendTo => exact .egress rfl moved
      | processor => exact .processor moved
      | publish => exact .publish moved

/-- A step of the egress is told of the same arrivals and the same time, and no channel
is disconnected. -/
theorem egressAction_spec {action : Signal ⊕ Work} {inner : Egress.Action}
    (told : egressAction action = some inner) :
    Egress.State.elapsed inner = elapsed action ∧ Egress.State.arriving inner = arrival action ∧
      ∀ priority, inner ≠ .disconnect priority := by
  cases action with
  | inl signal =>
      cases signal <;> cases told <;> exact ⟨rfl, rfl, by simp⟩
  | inr work =>
      cases work with
      | run | sendTo =>
          cases told
          exact ⟨rfl, rfl, by simp⟩
      | processor | publish => cases told

/-- The others change nothing in the egress but the events they take. -/
theorem Moved.egress_or {state next : State} {action : Signal ⊕ Work} (moved : Moved state action next) :
    (∃ inner egress, egressAction action = some inner ∧ state.egress.step inner = some egress ∧
        inner ≠ .takeEvent ∧ next = { state with egress }) ∨
      elapsed action = 0 ∧ arrival action = none ∧
        ∃ events, next.egress = { state.egress with events } := by
  cases moved with
  | egress told stepped =>
      obtain ⟨other, egress, egressStepped, rfl⟩ := State.step_egress stepped
      exact .inl ⟨_, egress, told, egressStepped, other, rfl⟩
  | processor stepped =>
      obtain ⟨events, unchanged, _⟩ := State.processorStep_takes stepped
      exact .inr ⟨rfl, rfl, events, unchanged⟩
  | publish published =>
      rw [publish_some published]
      exact .inr ⟨rfl, rfl, state.egress.events, rfl⟩

/-- What a step of the threads leaves of the flow, and what a signal adds to it. -/
structure State.Passes (state : State) (action : Signal ⊕ Work) (next : State) : Prop where
  clock : next.egress.clock = state.egress.clock + elapsed action
  flow : ∀ priority, next.egress.flow priority =
    state.egress.flow priority ++ ((arrival action).bind (ofClass priority)).toList
  connected : Connected state.egress.receivers → Connected next.egress.receivers

theorem moves_passes {state next : State} {action : Signal ⊕ Work}
    (moved : moves state action = some next) : state.Passes action next := by
  rcases (moves_moved moved).egress_or with
    ⟨inner, egress, told, stepped, _, rfl⟩ | ⟨still, silent, events, unchanged⟩
  · obtain ⟨clock, flow, stays⟩ := egressAction_spec told
    have passes := Egress.State.step_passes stepped
    exact ⟨clock ▸ passes.clock, flow ▸ passes.flow, passes.connected stays⟩
  · refine ⟨?_, ?_, ?_⟩
    · rw [unchanged, still]
      rfl
    · intro priority
      rw [unchanged, silent]
      exact (List.append_nil _).symm
    · rw [unchanged]
      exact id

def State.receives (state : State) (action : Signal ⊕ Work) : Option (Priority × Packet) :=
  (egressAction action).bind state.egress.receives

@[simp] theorem State.receives_signal (state : State) (signal : Signal) :
    state.receives (.inl signal) = none := by
  cases signal <;> rfl

theorem moves_receives {state next : State} {action : Signal ⊕ Work}
    (moved : moves state action = some next) :
    next.egress.dequeued = state.egress.dequeued ++ (state.receives action).toList := by
  cases moves_moved moved with
  | egress told stepped =>
      obtain ⟨_, egress, egressStepped, rfl⟩ := State.step_egress stepped
      simp only [State.receives, told, Option.bind_some]
      exact Egress.State.step_receives egressStepped
  | processor stepped =>
      obtain ⟨events, unchanged, _⟩ := State.processorStep_takes stepped
      rw [unchanged]
      exact (List.append_nil _).symm
  | publish published =>
      rw [publish_some published]
      exact (List.append_nil _).symm

/-- No signal is refused. -/
theorem moves_signal {state : State} (connected : Connected state.egress.receivers) (signal : Signal) :
    ∃ next, moves state (.inl signal) = some next := by
  cases signal with
  | arrive priority packet =>
      have open_ : ¬ (state.egress.receivers priority).disconnected = true := by
        rw [connected priority]
        exact Bool.false_ne_true
      exact ⟨_, congrArg (Option.map _) (if_neg open_)⟩
  | tick elapsed => exact ⟨_, rfl⟩
  | stop => exact ⟨_, rfl⟩

/-- Signals leave the thread Egress-DRR where it is. -/
theorem signal_place {state next : State} {signal : Signal} (moved : moves state (.inl signal) = some next) :
    next.egress.pc = state.egress.pc ∧ state.egress.clock ≤ next.egress.clock := by
  cases signal with
  | arrive priority packet =>
      have arrives : state.step (.egress (.arrive priority packet)) = some next := moved
      obtain ⟨_, egress, stepped, rfl⟩ := State.step_egress arrives
      cases Egress.State.step_moves stepped with
      | arrive => exact ⟨rfl, Nat.le_refl _⟩
  | tick elapsed =>
      cases moved
      exact ⟨rfl, Nat.le_add_right _ _⟩
  | stop =>
      cases moved
      exact ⟨rfl, Nat.le_refl _⟩

theorem signals_place {state next : State} {signals : List Signal}
    (ran : TransitionSystem.run moves state (signals.map .inl) = some next) :
    next.egress.pc = state.egress.pc ∧ state.egress.clock ≤ next.egress.clock := by
  induction signals generalizing state with
  | nil =>
      cases ran
      exact ⟨rfl, Nat.le_refl _⟩
  | cons signal rest ih =>
      obtain ⟨middle, moved, continued⟩ := TransitionSystem.run_cons_eq_some.mp ran
      obtain ⟨place, later⟩ := ih continued
      obtain ⟨same, passes⟩ := signal_place moved
      exact ⟨place.trans same, passes.trans later⟩

end MetricsCollector

end EdfPipeline
