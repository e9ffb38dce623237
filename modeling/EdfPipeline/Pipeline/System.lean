import EdfPipeline.Ingress.Intake
import EdfPipeline.Egress.Flow
import EdfPipeline.Library.Composition

/-!
# The whole pipeline

Ingress-DRR, the threads of one scheduler, Egress-DRR and Metrics-Processor run
side by side. What one stage sends is on the channel of the next at once, time
passes for all of them together, and `shutdown` clears the flag they all read.
-/

set_option autoImplicit false

namespace EdfPipeline

open TransitionSystem

/-- Sockets are registered before the threads are started. -/
def Ingress.State.serve (state : Ingress.State) : Ingress.Action → Option Ingress.State
  | .addSocket _ _ _ _ => none
  | action => state.step action

def Ingress.Action.announces : Ingress.Action → List Signal
  | .tick elapsed => [.tick elapsed]
  | .stop => [.stop]
  | .addSocket _ _ _ _ | .run | .recv _ _ => []

theorem Ingress.State.serve_step {state next : Ingress.State} {action : Ingress.Action}
    (served : state.serve action = some next) : state.step action = some next := by
  cases action with
  | addSocket => cases served
  | tick | stop | run | recv => exact served

namespace Pipeline

/-- What a stage tells the next one of a step: what it was told itself, and the packets
its queues took. -/
def told (signals : List Signal) (before after : PriorityTable OutputQueue) : List Signal :=
  signals ++ (accepted before after).map fun entry => .arrive entry.1 entry.2

variable (stage : Stage)

abbrev Front : Type := Ingress.State × stage.State

abbrev FrontAction : Type := Ingress.Action ⊕ (Signal ⊕ stage.Action)

/-- Ingress-DRR and the scheduler. -/
def front : Link Ingress.State Ingress.Action stage.State (Signal ⊕ stage.Action) where
  upstream := Ingress.State.serve
  downstream := stage.moves
  messages before action after := (told action.announces before.queues after.queues).map .inl
  own action := action.isRight

def announces : FrontAction stage → List Signal
  | .inl action => action.announces
  | .inr _ => []

abbrev State : Type := Front stage × MetricsCollector.State

abbrev Action : Type := FrontAction stage ⊕ (Signal ⊕ MetricsCollector.Work)

def link : Link (Front stage) (FrontAction stage) MetricsCollector.State
    (Signal ⊕ MetricsCollector.Work) where
  upstream := (front stage).step
  downstream := MetricsCollector.moves
  messages before action after :=
    (told (announces stage action) (stage.outputs before.2) (stage.outputs after.2)).map .inl
  own action := action.isRight

abbrev step : State stage → Action stage → Option (State stage) := (link stage).step

variable {stage}

namespace State

abbrev ingress (state : State stage) : Ingress.State := state.1.1

abbrev scheduler (state : State stage) : stage.State := state.1.2

abbrev egress (state : State stage) : Egress.State := state.2.egress

end State

variable (stage)

/-- Where the scheduler reads the sockets itself, Ingress-DRR is not started and has none. -/
def startIngress (registrations : List Registration) : Ingress.State :=
  if stage.readsSockets then { Ingress.State.initial with pc := .returned }
  else .configured registrations

def start (registrations : List Registration)
    (socketMap : PriorityTable (Option (List Egress.Socket))) : State stage :=
  ((startIngress stage registrations, stage.initial), .start (fun _ => .empty) socketMap)

variable {stage}

/-! ## What every step keeps -/

/-- What the front keeps: packets are on the queues of their class, and an ingress
that is not started stays so. -/
structure Front.Kept (front : Front stage) : Prop where
  routed : Routed front.1.queues
  unstarted : stage.readsSockets = true → front.1.pc = .returned
  scheduler : stage.Kept front.2

/-- Nothing is read by an ingress that is not started. -/
theorem unstarted_step {state next : Ingress.State} {action : Ingress.Action}
    (unstarted : state.pc = .returned) (served : state.serve action = some next) :
    next.pc = .returned ∧ next.queues = state.queues ∧ state.received action = none := by
  cases action with
  | addSocket => cases served
  | tick | stop =>
      cases served
      exact ⟨unstarted, rfl, rfl⟩
  | run => simp [Ingress.State.serve, Ingress.State.step, Ingress.State.runStep, unstarted] at served
  | recv => simp [Ingress.State.serve, Ingress.State.step, Ingress.State.recvStep, unstarted] at served

/-- What Ingress-DRR tells the scheduler arrives on the channel of its class. -/
theorem told_proper {before after : Ingress.State} {action : Ingress.Action} {signal : Signal}
    (grown : Grown before.queues after.queues) (routed : Routed after.queues)
    (listed : signal ∈ told action.announces before.queues after.queues) : signal.Proper := by
  rcases List.mem_append.mp listed with announced | arrives
  · cases action with
    | tick | stop =>
        rw [List.mem_singleton.mp announced]
        trivial
    | addSocket | run | recv => cases announced
  · obtain ⟨⟨priority, packet⟩, taken, rfl⟩ := List.mem_map.mp arrives
    refine routed.own priority packet ((after.queues priority).sent_sublist_handed.mem ?_)
    rw [sent_accepted grown]
    refine List.mem_append_right _ (List.mem_filterMap.mpr ⟨_, taken, ?_⟩)
    simp [ofClass]

theorem told_same {signals : List Signal} {before after : PriorityTable OutputQueue}
    (same : after = before) : told signals before after = signals := by
  rw [told, same, accepted_self, List.map_nil, List.append_nil]

/-- What is told to a scheduler that reads the sockets itself is no arrival. -/
theorem told_unstarted {before after : Ingress.State} {action : Ingress.Action}
    (unstarted : before.pc = .returned) (served : before.serve action = some after)
    (priority : Priority) (packet : Packet) :
    .arrive priority packet ∉ told action.announces before.queues after.queues := by
  rw [told_same (unstarted_step unstarted served).2.1]
  cases action <;> simp [Ingress.Action.announces]

theorem front_kept {state next : Front stage} {action : FrontAction stage} (kept : state.Kept)
    (stepped : (front stage).step state action = some next) : next.Kept where
  routed := by
    cases Link.step_moves stepped with
    | send served told => exact (Ingress.State.step_hands (Ingress.State.serve_step served)).routed kept.routed
    | alone => exact kept.routed
  unstarted reads := by
    cases Link.step_moves stepped with
    | send served told => exact (unstarted_step (kept.unstarted reads) served).1
    | alone => exact kept.unstarted reads
  scheduler := Link.downstream_kept stage.moves_kept kept.scheduler stepped

/-- The scheduler refuses nothing that Ingress-DRR tells it. -/
theorem front_enabled {state : Front stage} {action : Ingress.Action} {next : Ingress.State}
    (kept : state.Kept) (served : state.1.serve action = some next) :
    ∃ reached, (front stage).step state (.inl action) = some (next, reached) := by
  refine Link.send_enabled stage.moves_kept ?_ kept.scheduler served
  intro message listed receiver holds
  have hands := Ingress.State.step_hands (Ingress.State.serve_step served)
  obtain ⟨signal, told, rfl⟩ := List.mem_map.mp listed
  refine stage.accepts holds (told_proper hands.grown (hands.routed kept.routed) told) ?_
  rintro reads priority packet rfl
  exact told_unstarted (kept.unstarted reads) served priority packet told

structure Kept (state : State stage) : Prop where
  front : Front.Kept state.1
  connected : Connected state.egress.receivers

theorem step_kept {state next : State stage} {action : Action stage} (kept : Kept state)
    (stepped : step stage state action = some next) : Kept next where
  front := Link.upstream_kept front_kept kept.front stepped
  connected := @Link.downstream_kept _ _ _ _ (link stage)
    (fun collector => Connected collector.egress.receivers)
    (fun connected moved => (MetricsCollector.moves_passes moved).connected connected) _ _ _
    kept.connected stepped

/-- No stage is held up by the next one: whatever Ingress-DRR or the scheduler can do
by itself it can do in the pipeline. -/
theorem step_enabled {state : State stage} {action : FrontAction stage} {next : Front stage}
    (kept : Kept state) (moved : (front stage).step state.1 action = some next) :
    ∃ reached, step stage state (.inl action) = some (next, reached) := by
  refine @Link.send_enabled _ _ _ _ (link stage)
    (fun collector => Connected collector.egress.receivers)
    (fun connected moved => (MetricsCollector.moves_passes moved).connected connected) _ _ _ ?_
    kept.connected moved
  intro message listed receiver connected
  obtain ⟨signal, _, rfl⟩ := List.mem_map.mp listed
  exact MetricsCollector.moves_signal connected signal

theorem startIngress_frame (registrations : List Registration) :
    (startIngress stage registrations).queues = (fun _ => .initial) ∧
      (startIngress stage registrations).nextPacketId = 0 ∧
        (startIngress stage registrations).clock = 0 := by
  unfold startIngress
  split
  · exact ⟨rfl, rfl, rfl⟩
  · exact Ingress.State.configured_frame registrations

theorem start_kept (registrations : List Registration)
    (socketMap : PriorityTable (Option (List Egress.Socket))) :
    Kept (start stage registrations socketMap) where
  front := by
    refine ⟨?_, ?_, stage.initial_kept⟩
    · rw [start, (startIngress_frame registrations).1]
      exact initial_routed
    · intro reads
      simp only [start, startIngress, reads, if_true]
  connected _ := rfl

/-! ## What the stages agree on -/

/-- Whatever is noted of arrivals and of time, a stage notes of all it is told what it
notes of the announcements and then of the packets. -/
theorem foldl_told {Noted Action : Type} (note : Noted → Signal ⊕ Action → Noted) (signals : List Signal)
    (before after : PriorityTable OutputQueue) (noted : Noted) :
    ((told signals before after).map .inl).foldl note noted =
      (accepted before after).foldl (fun noted entry => note noted (.inl (.arrive entry.1 entry.2)))
        (signals.foldl (fun noted signal => note noted (.inl signal)) noted) := by
  simp only [told, List.map_append, List.foldl_append, List.foldl_map]

theorem foldl_elapsed {Action : Type} (action : Ingress.Action) (before after : PriorityTable OutputQueue)
    (clock : Instant) :
    ((told action.announces before after).map .inl).foldl
        (fun clock (told : Signal ⊕ Action) => clock + elapsed told) clock =
      clock + Ingress.State.elapsed action := by
  have still (entries : List (Priority × Packet)) (clock : Instant) :
      entries.foldl (fun clock entry =>
        clock + elapsed (.inl (.arrive entry.1 entry.2) : Signal ⊕ Action)) clock = clock := by
    induction entries generalizing clock with
    | nil => rfl
    | cons entry rest ih => exact ih _
  rw [foldl_told, still]
  cases action <;> rfl

/-- What arrives on the channels of a class is appended to what arrived before. -/
def noteArrival {Action : Type} (noted : PriorityTable (List Packet)) (told : Signal ⊕ Action) :
    PriorityTable (List Packet) :=
  fun priority => noted priority ++ ((arrival told).bind (ofClass priority)).toList

/-- Where only packets are noted, announcements go unnoticed. -/
theorem foldl_told_arrivals {Noted Action : Type} {note : Noted → Signal ⊕ Action → Noted}
    (silent : ∀ noted signal, signal.arrival = none → note noted (.inl signal) = noted)
    {signals : List Signal} (announced : ∀ signal ∈ signals, signal.arrival = none)
    (before after : PriorityTable OutputQueue) (noted : Noted) :
    ((told signals before after).map .inl).foldl note noted =
      (accepted before after).foldl
        (fun noted entry => note noted (.inl (.arrive entry.1 entry.2))) noted := by
  rw [foldl_told]
  congr 1
  induction signals with
  | nil => rfl
  | cons signal rest ih =>
      rw [List.foldl_cons, silent noted signal (announced signal List.mem_cons_self)]
      exact ih fun other listed => announced other (List.mem_cons_of_mem _ listed)

theorem foldl_arrival {Action : Type} {signals : List Signal}
    (announced : ∀ signal ∈ signals, signal.arrival = none) (before after : PriorityTable OutputQueue)
    (noted : PriorityTable (List Packet)) (priority : Priority) :
    ((told signals before after).map .inl).foldl (@noteArrival Action) noted priority =
      noted priority ++ (accepted before after).filterMap (ofClass priority) := by
  have silent (noted : PriorityTable (List Packet)) (signal : Signal) (nothing : signal.arrival = none) :
      @noteArrival Action noted (.inl signal) = noted := by
    funext other
    simp only [noteArrival, arrival, nothing, Option.bind_none, Option.toList_none, List.append_nil]
  rw [foldl_told_arrivals silent announced]
  generalize accepted before after = entries
  induction entries generalizing noted with
  | nil => exact (List.append_nil _).symm
  | cons entry rest ih =>
      rw [List.foldl_cons, ih, List.filterMap_cons]
      cases class_ : ofClass priority entry with
      | none => simp [noteArrival, arrival, Signal.arrival, class_]
      | some packet => simp [noteArrival, arrival, Signal.arrival, class_]

theorem announces_arrival (action : FrontAction stage) :
    ∀ signal ∈ announces stage action, signal.arrival = none := by
  intro signal listed
  cases action with
  | inl action =>
      cases action with
      | tick | stop =>
          rw [List.mem_singleton.mp listed]
          rfl
      | addSocket | run | recv => cases listed
  | inr action => cases listed

/-- What the scheduler has sent, whether it was told of something or worked. -/
theorem front_grown {state next : Front stage} {action : FrontAction stage} (kept : state.Kept)
    (stepped : (front stage).step state action = some next) :
    Grown (stage.outputs state.2) (stage.outputs next.2) := by
  have grows {scheduler : stage.State} {action : Signal ⊕ stage.Action} {after : stage.State}
      (so_far : stage.Kept scheduler ∧ Grown (stage.outputs state.2) (stage.outputs scheduler))
      (moved : stage.moves scheduler action = some after) :
      stage.Kept after ∧ Grown (stage.outputs state.2) (stage.outputs after) :=
    ⟨stage.moves_kept so_far.1 moved, so_far.2.trans (stage.grows so_far.1 moved)⟩
  exact (@Link.downstream_kept _ _ _ _ (front stage) (fun scheduler =>
    stage.Kept scheduler ∧ Grown (stage.outputs state.2) (stage.outputs scheduler)) grows _ _ _
    ⟨kept.scheduler, .refl _⟩ stepped).2

/-- What the egress received of a class or has still to receive is what the scheduler
sent, in order. -/
def Joined (state : State stage) : Prop :=
  (fun priority => (stage.outputs state.scheduler priority).sent) = state.egress.flow

theorem step_joined {state next : State stage} {action : Action stage} (kept : Kept state)
    (joined : Joined state) (stepped : step stage state action = some next) : Joined next := by
  refine @Link.agreed_kept _ _ _ _ (link stage) _ noteArrival
    (fun collector => collector.egress.flow) (fun _ => True)
    (fun front priority => (stage.outputs front.2 priority).sent) (fun _ _ => trivial) ?_ ?_ _ _ _ ?_
    trivial joined stepped
  · intro collector told after _ moved
    funext priority
    exact (MetricsCollector.moves_passes moved).flow priority
  · intro told own noted
    cases told with
    | inl signal => cases own
    | inr inner =>
        funext priority
        exact List.append_nil _
  · intro first reached _ moved
    funext priority
    refine (sent_accepted (front_grown kept.front moved) priority).trans ?_
    exact (foldl_arrival (announces_arrival first) (stage.outputs state.1.2) (stage.outputs reached.2)
      (fun priority => (stage.outputs state.1.2 priority).sent) priority).symm

/-- Ingress-DRR and the scheduler read one clock. -/
def Front.Synchronous (front : Front stage) : Prop := front.1.clock = (stage.ends front.2).clock

theorem front_synchronous {state next : Front stage} {action : FrontAction stage} (kept : state.Kept)
    (synchronous : state.Synchronous) (stepped : (front stage).step state action = some next) :
    next.Synchronous := by
  refine @Link.agreed_kept _ _ _ _ (front stage) _ (fun clock told => clock + elapsed told)
    (fun scheduler => (stage.ends scheduler).clock) stage.Kept Ingress.State.clock stage.moves_kept
    stage.ticks ?_ _ _ _ ?_ kept.scheduler synchronous stepped
  · intro told own clock
    cases told with
    | inl signal => cases own
    | inr inner => rfl
  · intro first reached _ served
    exact (Ingress.State.step_hands (Ingress.State.serve_step served)).clock.trans
      (foldl_elapsed first state.1.queues reached.queues state.1.clock).symm

/-- All threads read one clock. -/
structure Synchronous (state : State stage) : Prop where
  front : Front.Synchronous state.1
  egress : state.ingress.clock = state.egress.clock

theorem foldl_announced (action : FrontAction stage) {state next : Front stage}
    (stepped : (front stage).step state action = some next) (before after : PriorityTable OutputQueue) :
    ((told (announces stage action) before after).map .inl).foldl
        (fun clock (told : Signal ⊕ MetricsCollector.Work) => clock + elapsed told) state.1.clock =
      next.1.clock := by
  cases Link.step_moves stepped with
  | send served told =>
      exact (foldl_elapsed _ before after _).trans
        (Ingress.State.step_hands (Ingress.State.serve_step served)).clock.symm
  | alone => exact foldl_elapsed .run before after _

theorem step_synchronous {state next : State stage} {action : Action stage} (kept : Kept state)
    (synchronous : Synchronous state) (stepped : step stage state action = some next) :
    Synchronous next where
  front := by
    cases Link.step_moves stepped with
    | send moved told => exact front_synchronous kept.front synchronous.front moved
    | alone => exact synchronous.front
  egress := by
    refine @Link.agreed_kept _ _ _ _ (link stage) _ (fun clock told => clock + elapsed told)
      (fun collector => collector.egress.clock) (fun _ => True) (fun front => front.1.clock)
      (fun _ _ => trivial) (fun _ moved => (MetricsCollector.moves_passes moved).clock) ?_ _ _ _ ?_
      trivial synchronous.egress stepped
    · intro told own clock
      cases told with
      | inl signal => cases own
      | inr inner => rfl
    · intro first reached _ moved
      exact (foldl_announced first moved (stage.outputs state.1.2) (stage.outputs reached.2)).symm

/-! ## Behind the scheduler -/

/-- What is seen of the steps that the threads behind the scheduler take by themselves. -/
def behind {Seen : Type} (observe : MetricsCollector.State → Signal ⊕ MetricsCollector.Work → Option Seen)
    (state : State stage) : Action stage → Option Seen
  | .inl _ => none
  | .inr action => observe state.2 action

/-- What they keep of all that was seen, they keep in the pipeline, if signals show
nothing. -/
theorem step_behind {Seen : Type}
    {observe : MetricsCollector.State → Signal ⊕ MetricsCollector.Work → Option Seen}
    {invariant : MetricsCollector.State → List Seen → Prop}
    (silent : ∀ collector signal, observe collector (.inl signal) = none)
    (preserved : ∀ {collector seen action next}, invariant collector seen →
      MetricsCollector.moves collector action = some next →
      invariant next (seen ++ (observe collector action).toList))
    {history next : State stage × Past (State stage) (Action stage)} {action : Action stage}
    (holds : invariant history.1.2 (observed (behind observe) history.2))
    (stepped : recorded (step stage) history action = some next) :
    invariant next.1.2 (observed (behind observe) next.2) := by
  obtain ⟨after, past⟩ := next
  obtain ⟨moved, rfl⟩ := recorded_eq_some.mp stepped
  rw [observed_append]
  have told {collector reached : MetricsCollector.State} {signals : List Signal} {seen : List Seen}
      (holds : invariant collector seen)
      (ran : run MetricsCollector.moves collector (signals.map .inl) = some reached) :
      invariant reached seen := by
    induction signals generalizing collector with
    | nil =>
        cases ran
        exact holds
    | cons signal rest ih =>
        obtain ⟨middle, signalled, continued⟩ := run_cons_eq_some.mp ran
        have kept := preserved holds signalled
        rw [silent, Option.toList_none, List.append_nil] at kept
        exact ih kept continued
  cases Link.step_moves moved with
  | send frontMoved ran =>
      rw [behind, Option.toList_none, List.append_nil]
      exact told holds ran
  | alone own alone => exact preserved holds alone

end Pipeline

end EdfPipeline
