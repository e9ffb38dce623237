import EdfPipeline.Library.LossyFifo
import EdfPipeline.Library.Refinement
import EdfPipeline.Pipeline.Account
import EdfPipeline.Pipeline.Order

/-!
# The pipeline as four lossy queues

With a scheduler of one thread the pipeline is to its surroundings one queue for
each class, to which packets are offered as they are read and from which the
egress receives them in order. What is lost on the way is counted by the ingress
and by the scheduler.
-/

set_option autoImplicit false

namespace EdfPipeline.Pipeline

open TransitionSystem

variable {line : LineStage}

/-- The packets of a class on their way: those the egress has still to receive, then
those the scheduler has still to hand over. -/
def flight (state : State line.toStage) (priority : Priority) : List Packet :=
  state.egress.queue priority ++
    (line.line state.scheduler priority).drop (line.outputs state.scheduler priority).handed.length

abbrev RelayState : Type := LossyFifo.State Priority Packet

abbrev RelayEvent : Type := LossyFifo.Event Priority Packet

/-- What is seen of the queues: a packet is read, or the egress receives one. -/
def relayEvent {stage : Stage} (state : State stage) : Action stage → Option RelayEvent
  | .inl action => (reads state (.inl action)).map fun packet => .offered packet.priority packet
  | .inr action => (state.2.receives action).map fun item => .delivered item.1 item.2

theorem relayEvent_offered {stage : Stage} (state : State stage) (action : Action stage)
    (priority : Priority) : (relayEvent state action).bind (LossyFifo.Event.offeredTo priority) =
      ((reads state action).map Packet.classed).bind (ofClass priority) := by
  cases action with
  | inl action =>
      simp only [relayEvent]
      cases reads state (.inl action) <;> rfl
  | inr action =>
      simp only [relayEvent, reads]
      cases state.2.receives action <;> rfl

theorem relayEvent_delivered {stage : Stage} (state : State stage) (action : Action stage)
    (priority : Priority) : (relayEvent state action).bind (LossyFifo.Event.deliveredFrom priority) =
      (behind MetricsCollector.State.receives state action).bind (ofClass priority) := by
  cases action with
  | inl action =>
      simp only [relayEvent, behind]
      cases reads state (.inl action) <;> rfl
  | inr action =>
      simp only [relayEvent, behind]
      cases state.2.receives action <;> rfl

theorem observed_offered {stage : Stage} (past : Past (State stage) (Action stage))
    (priority : Priority) : (observed relayEvent past).filterMap (LossyFifo.Event.offeredTo priority) =
      ((observed reads past).map Packet.classed).filterMap (ofClass priority) := by
  induction past using List.reverseRecOn with
  | nil => rfl
  | append_singleton past entry ih =>
      rw [filterMap_observed_append, ih, relayEvent_offered, observed_append, List.map_append,
        List.filterMap_append]
      congr 1
      cases reads entry.1 entry.2 with
      | none => rfl
      | some packet => cases class_ : ofClass priority packet.classed <;> simp [class_]

theorem observed_delivered {stage : Stage} (past : Past (State stage) (Action stage))
    (priority : Priority) : (observed relayEvent past).filterMap (LossyFifo.Event.deliveredFrom priority) =
      (observed (behind MetricsCollector.State.receives) past).filterMap (ofClass priority) := by
  induction past using List.reverseRecOn with
  | nil => rfl
  | append_singleton past entry ih =>
      rw [filterMap_observed_append, ih, relayEvent_delivered, filterMap_observed_append]

/-! ## The steps of the front -/

/-- Whatever ingress and scheduler do, a queue holds what it held and what was read, less
what was dropped. -/
theorem flight_front {state next : State line.toStage} {read : Option Packet} {priority : Priority}
    {new : List Packet} (kept : Kept state) (kept' : Kept next) (joined : Joined state)
    (joined' : Joined next)
    (grown : Grown (line.outputs state.scheduler) (line.outputs next.scheduler))
    (same : next.egress.dequeued = state.egress.dequeued)
    (appends : Appends state.1 read next.1 priority new) :
    (flight next priority).Sublist (flight state priority ++ new) := by
  obtain ⟨pending, before⟩ := line.handed_line kept.front.scheduler priority
  obtain ⟨pending', after⟩ := line.handed_line kept'.front.scheduler priority
  have handed : (line.outputs state.scheduler priority).handed <+:
      (line.outputs next.scheduler priority).handed := (grown priority).map Prod.fst
  obtain ⟨more, handed⟩ := handed
  have moved : pending ++ new = more ++ pending' := by
    have appended := appends.appended
    rw [← before, ← after, ← handed, List.append_assoc, List.append_assoc] at appended
    exact (List.append_cancel_left appended).symm
  have queue : next.egress.queue priority = state.egress.queue priority ++
      (line.outputs next.scheduler priority).since (line.outputs state.scheduler priority) := by
    have sent := OutputQueue.sent_since (grown priority)
    have flows : (line.outputs state.scheduler priority).sent = _ := congrFun joined priority
    have flows' : (line.outputs next.scheduler priority).sent = _ := congrFun joined' priority
    rw [flows, flows', Egress.State.flow, Egress.State.flow, Egress.State.dequeuedOf, same, List.append_assoc]
      at sent
    exact List.append_cancel_left sent
  have part := OutputQueue.since_sublist (grown priority) handed.symm
  rw [flight, flight, ← before, ← after, List.drop_left, List.drop_left, queue, List.append_assoc,
    List.append_assoc, moved]
  exact (List.Sublist.refl _).append (part.append (.refl _))

/-! ## Refinement -/

structure Represents (history : State line.toStage × Past (State line.toStage) (Action line.toStage))
    (relay : RelayState) : Prop where
  kept : Kept history.1
  joined : Joined history.1
  dequeued : history.1.egress.dequeued =
    observed (behind MetricsCollector.State.receives) history.2
  lines : ∀ priority,
    (((observed reads history.2).map Packet.classed).filterMap (ofClass priority)).length =
      (history.1.ingress.queues priority).dropCounter +
        (line.line history.1.scheduler priority).length
  queues : relay.queues = flight history.1

abbrev relayStep : RelayState → LossyFifo.Action Priority Packet → Option RelayState := LossyFifo.step

/-- Ingress and scheduler offer what they read and lose what they drop. -/
theorem front_shows {state next : State line.toStage} {action : FrontAction line.toStage}
    {relay : RelayState} (queues : relay.queues = flight state)
    (appends : ∀ priority, ∃ new, Appends state.1 (reads state (.inl action)) next.1 priority new ∧
      (flight next priority).Sublist (flight state priority ++ new)) :
    ∃ lost, Shows relayStep LossyFifo.shown relay (relayEvent state (.inl action)).toList
      { queues := flight next, lost } := by
  choose new appends parts using appends
  cases read : reads state (.inl action) with
  | none =>
      have kept (priority : Priority) : (flight next priority).Sublist (relay.queues priority) := by
        have part := (appends priority).part
        rw [read] at part
        have whole := parts priority
        rw [List.sublist_nil.mp part, List.append_nil] at whole
        exact queues ▸ whole
      obtain ⟨actions, lost, ran, silent⟩ := LossyFifo.lose_run relay.lost kept
      refine ⟨lost, actions, ran, ?_⟩
      rw [silent, relayEvent, read]
      rfl
  | some packet =>
      have part := (appends packet.priority).part
      rw [read] at part
      have own : (new packet.priority).Sublist [packet] := by
        simpa [Packet.classed, ofClass] using part
      obtain ⟨first, lost, shows, offered⟩ := LossyFifo.offer_step relay packet.priority own
      have kept (priority : Priority) : (flight next priority).Sublist
          (Function.update relay.queues packet.priority
            (relay.queues packet.priority ++ new packet.priority) priority) := by
        by_cases same : priority = packet.priority
        · subst same
          rw [Function.update_self, queues]
          exact parts packet.priority
        · have nothing := (appends priority).part
          simp only [read, Option.map_some, Option.bind_some, Packet.classed, ofClass, Ne.symm same,
            if_false, Option.toList_none] at nothing
          have whole := parts priority
          rw [List.sublist_nil.mp nothing, List.append_nil] at whole
          rw [Function.update_of_ne same, queues]
          exact whole
      obtain ⟨actions, lost', ran, silent⟩ := LossyFifo.lose_run lost kept
      refine ⟨lost', first :: actions, ?_, ?_⟩
      · rw [run_cons, relayStep, offered]
        exact ran
      · rw [List.filterMap_cons_some shows, silent, relayEvent, read]
        rfl

/-- The egress takes the first packet of a queue, or none. -/
theorem alone_shows {state : State line.toStage} {action : Signal ⊕ MetricsCollector.Work}
    {after : MetricsCollector.State} {relay : RelayState} (queues : relay.queues = flight state)
    (own : action.isRight = true) (moved : MetricsCollector.moves state.2 action = some after) :
    ∃ lost, Shows relayStep LossyFifo.shown relay (relayEvent state (.inr action)).toList
      { queues := flight ((state.1, after) : State line.toStage), lost } := by
  have silent : arrival action = none := by
    cases action with
    | inl signal => cases own
    | inr work => rfl
  have received := MetricsCollector.moves_receives moved
  have waits (priority : Priority) : state.egress.queue priority =
      ((state.2.receives action).bind (ofClass priority)).toList ++ after.egress.queue priority := by
    have flows := (MetricsCollector.moves_passes moved).flow priority
    rw [silent, Option.bind_none, Option.toList_none, List.append_nil, Egress.State.flow,
      Egress.State.flow, Egress.State.dequeuedOf, received, List.filterMap_append, List.append_assoc] at flows
    have split : (state.2.receives action).toList.filterMap (ofClass priority) =
        ((state.2.receives action).bind (ofClass priority)).toList := by
      cases state.2.receives action with
      | none => rfl
      | some item => cases class_ : ofClass priority item <;> simp [class_]
    rw [split] at flows
    exact (List.append_cancel_left flows).symm
  have flights (priority : Priority) : flight state priority =
      ((state.2.receives action).bind (ofClass priority)).toList ++
        flight ((state.1, after) : State line.toStage) priority := by
    rw [flight, waits, List.append_assoc]
    rfl
  cases received : state.2.receives action with
  | none =>
      have same : flight ((state.1, after) : State line.toStage) = relay.queues := by
        funext priority
        have whole := flights priority
        rw [received] at whole
        rw [queues]
        exact whole.symm
      refine ⟨relay.lost, [], ?_, ?_⟩
      · rw [same]
        rfl
      · rw [relayEvent, received]
        rfl
  | some item =>
      obtain ⟨class_, packet⟩ := item
      have front : relay.queues class_ =
          packet :: flight ((state.1, after) : State line.toStage) class_ := by
        have whole := flights class_
        rw [received] at whole
        simpa [queues, ofClass] using whole
      refine ⟨relay.lost, [.take class_ packet], ?_, ?_⟩
      · rw [run_cons, relayStep, LossyFifo.take_step front]
        refine congrArg some (congrArg (LossyFifo.State.mk · relay.lost) ?_)
        funext priority
        by_cases same : priority = class_
        · subst same
          exact Function.update_self ..
        · have whole := flights priority
          simp only [received, Option.bind_some, ofClass, Ne.symm same, if_false, Option.toList_none,
            List.nil_append] at whole
          rw [Function.update_of_ne same, queues, whole]
      · rw [relayEvent, received]
        rfl

/-- The numbers of packets kept by the books of a step. -/
theorem represents_step
    {history next : State line.toStage × Past (State line.toStage) (Action line.toStage)}
    {action : Action line.toStage} {relay : RelayState} (represents : Represents history relay)
    (stepped : recorded (step line.toStage) history action = some next) {reached : RelayState}
    (queues : reached.queues = flight next.1) : Represents next reached := by
  have dequeued := @step_behind line.toStage _ _ (fun collector seen => collector.egress.dequeued = seen)
    MetricsCollector.State.receives_signal
    (fun same moved => by rw [MetricsCollector.moves_receives moved, same]) _ _ _ represents.dequeued
    stepped
  obtain ⟨after, past⟩ := next
  obtain ⟨moved, rfl⟩ := recorded_eq_some.mp stepped
  refine ⟨step_kept represents.kept moved, step_joined represents.kept represents.joined moved, dequeued,
    ?_, queues⟩
  intro priority
  have before := represents.lines priority
  have split : ((observed reads (history.2 ++ [(history.1, action)])).map Packet.classed).filterMap
      (ofClass priority) = ((observed reads history.2).map Packet.classed).filterMap (ofClass priority) ++
        (((reads history.1 action).map Packet.classed).bind (ofClass priority)).toList := by
    rw [observed_append, List.map_append, List.filterMap_append]
    congr 1
    cases reads history.1 action with
    | none => rfl
    | some packet => cases class_ : ofClass priority packet.classed <;> simp [class_]
  rw [split, List.length_append, before]
  cases Link.step_moves moved with
  | @send action front reached frontMoved told =>
      obtain ⟨new, appends⟩ := line_step represents.kept.front frontMoved history.1.2 priority
      have dropped : (front.1.queues priority).dropCounter + new.length =
        (history.1.ingress.queues priority).dropCounter +
          (((reads history.1 (.inl action)).map Packet.classed).bind (ofClass priority)).toList.length :=
        appends.dropped
      have appended : line.line front.2 priority = line.line history.1.scheduler priority ++ new :=
        appends.appended
      change _ = (front.1.queues priority).dropCounter + (line.line front.2 priority).length
      rw [appended, List.length_append]
      omega
  | alone => rfl

/-- Every step is one of four lossy queues. -/
def refinement : Refinement (step line.toStage) relayStep relayEvent LossyFifo.shown where
  relation := Represents
  matched := by
    intro history next action relay represents stepped
    have shows : ∃ lost, Shows relayStep LossyFifo.shown relay (relayEvent history.1 action).toList
        { queues := flight next.1, lost } := by
      have after : Represents next { queues := flight next.1, lost := relay.lost } :=
        represents_step represents stepped rfl
      have dequeued := after.dequeued
      obtain ⟨moved, past⟩ := recorded_eq_some.mp stepped
      rw [past] at dequeued
      obtain ⟨next, _⟩ := next
      cases Link.step_moves moved with
      | send frontMoved told =>
          rw [observed_none rfl, ← represents.dequeued] at dequeued
          refine front_shows represents.queues fun priority => ?_
          obtain ⟨new, appends⟩ := line_step represents.kept.front frontMoved history.1.2 priority
          exact ⟨new, appends, flight_front represents.kept after.kept represents.joined after.joined
            (front_grown represents.kept.front frontMoved) dequeued appends⟩
      | alone own alone => exact alone_shows represents.queues own alone
    obtain ⟨lost, actions, ran, shown⟩ := shows
    exact ⟨actions, _, ran, shown, represents_step represents stepped rfl⟩

theorem start_represents (registrations : List Registration)
    (socketMap : PriorityTable (Option (List Egress.Socket))) :
    Represents (start line.toStage registrations socketMap, []) LossyFifo.initial := by
  have booked := @start_booked line.toStage registrations socketMap
  have empty (priority : Priority) : line.line line.initial priority = [] := line.initial_line priority
  refine ⟨booked.kept, booked.joined, rfl, ?_, ?_⟩
  · intro priority
    change 0 = ((startIngress line.toStage registrations).queues priority).dropCounter +
      (line.line line.initial priority).length
    rw [(startIngress_frame registrations).1, empty]
    rfl
  · funext priority
    change [] = [] ++ (line.line line.initial priority).drop _
    rw [empty, List.drop_nil]
    rfl

/-- Some run of the queues shows what was seen of the pipeline. What waits for the egress
is at the front of the queues, and they have lost what the two stages count. -/
def LossyQueues {stage : Stage} (history : State stage × Past (State stage) (Action stage)) : Prop :=
  ∃ relay, Shows relayStep LossyFifo.shown LossyFifo.initial (observed relayEvent history.2) relay ∧
    ∀ priority, history.1.egress.queue priority <+: relay.queues priority ∧
      relay.lost priority = (history.1.ingress.queues priority).dropCounter +
        (stage.outputs history.1.scheduler priority).dropCounter

/-- What was read of a class was lost, or received, or is in flight. -/
theorem Represents.lost
    {history : State line.toStage × Past (State line.toStage) (Action line.toStage)} {relay : RelayState}
    (represents : Represents history relay)
    (shows : Shows relayStep LossyFifo.shown LossyFifo.initial (observed relayEvent history.2) relay)
    (priority : Priority) : relay.lost priority = (history.1.ingress.queues priority).dropCounter +
      (line.outputs history.1.scheduler priority).dropCounter := by
  obtain ⟨actions, ran, same⟩ := shows
  have counted := (LossyFifo.run_accounts ran).counted priority
  rw [same, observed_offered, observed_delivered, represents.lines, ← represents.dequeued,
    represents.queues] at counted
  obtain ⟨pending, whole⟩ : (line.outputs history.1.scheduler priority).handed <+:
      line.line history.1.scheduler priority := line.handed_line represents.kept.front.scheduler priority
  have handed := (OutputQueue.handed_split (line.outputs history.1.scheduler priority)).length_eq
  have flows : (line.outputs history.1.scheduler priority).sent = _ := congrFun represents.joined priority
  have drops : (line.outputs history.1.scheduler priority).dropCounter = _ :=
    line.counted represents.kept.front.scheduler priority
  rw [List.length_append, flows, Egress.State.flow, ← drops] at handed
  rw [flight, ← whole, List.drop_left] at counted
  simp only [List.length_append, Egress.State.dequeuedOf] at counted handed
  omega

theorem lossyQueues {history : State line.toStage × Past (State line.toStage) (Action line.toStage)}
    (shown : refinement.Shown LossyFifo.initial history) : LossyQueues history := by
  obtain ⟨relay, shows, represents⟩ := shown
  refine ⟨relay, shows, fun priority => ⟨?_, represents.lost shows priority⟩⟩
  rw [represents.queues]
  exact List.prefix_append _ _

end EdfPipeline.Pipeline

namespace EdfPipeline

open TransitionSystem

open Pipeline in
/-- With the schedulers of one thread every run of the pipeline is a run of four queues
that may lose packets: what is read of a class is offered to its queue, the egress
receives what the queue delivers in order, and every loss is counted. -/
theorem PipelineConfig.refines_lossy_queues (config : PipelineConfig)
    (single : config.scheduler = .single ∨ config.scheduler = .singleCpuEdf)
    (actions : List (Pipeline.Action config.stage)) :
    Throughout (recorded (Pipeline.step config.stage)) LossyQueues (config.start, []) actions := by
  obtain ⟨line, same⟩ := config.exists_lineStage single
  rw [PipelineConfig.start]
  revert actions
  rw [← same]
  intro actions
  exact refinement.throughout lossyQueues (start_represents config.registrations outputSocketMap) actions

/-- The events of the class: three packets are offered, the second is lost. -/
theorem three_datagrams_refine :
    Throughout (recorded (Pipeline.step PipelineConfig.default.stage)) Pipeline.LossyQueues
        (PipelineConfig.default.start, []) (Pipeline.firstSent ++ Pipeline.nextSent) ∧
      ((run (recorded (Pipeline.step PipelineConfig.default.stage)) (PipelineConfig.default.start, [])
          (Pipeline.firstSent ++ Pipeline.nextSent)).map fun history =>
            ((observed Pipeline.relayEvent history.2).filterMap fun event =>
              (event.offeredTo .high).map Packet.id,
              (history.1.egress.dequeuedOf .high).map Packet.id,
              (history.1.ingress.queues .high).dropCounter)) = some ([0, 1, 2], [0, 2], 1) :=
  ⟨PipelineConfig.default.refines_lossy_queues (.inl rfl) _, by decide +kernel⟩

end EdfPipeline
