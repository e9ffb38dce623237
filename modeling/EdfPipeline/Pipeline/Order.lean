import EdfPipeline.Pipeline.Config

/-!
# Order across the pipeline

Packets are numbered as they are read. A scheduler that hands over the packets of
a class in the order they entered it hands them over in the order of their
numbers, whatever is dropped on the way, so the check of the egress never fires.
-/

set_option autoImplicit false

namespace EdfPipeline

open TransitionSystem

/-! ## The check of the egress -/

namespace Egress.State

/-- What `process_queues` would report. -/
def OutOfOrder (state : State) (priority : Priority) (packet : Packet) : Prop :=
  state.lastIds priority ≠ wordBound - 1 ∧ packet.id ≤ state.lastIds priority

/-- The number kept for a class is that of the last packet received. -/
def KeepsLast (state : State) : Prop :=
  ∀ priority, state.lastIds priority =
    ((state.dequeuedOf priority).getLast?.map Packet.id).getD (wordBound - 1)

theorem recordPacket_lastIds (state : State) (rest : List Priority) (packet : Packet)
    (event : MetricsEvent) : (state.recordPacket rest packet event).lastIds = state.lastIds := by
  simp only [recordPacket]
  split <;> rfl

theorem step_keepsLast {state next : State} {action : Action} (keeps : state.KeepsLast)
    (stepped : state.step action = some next) : next.KeepsLast := by
  have same (lastIds : next.lastIds = state.lastIds) (dequeued : next.dequeued = state.dequeued) :
      next.KeepsLast := by
    intro priority
    rw [lastIds, dequeuedOf, dequeued]
    exact keeps priority
  cases step_moves stepped with
  | @receive priority rest packet remaining place received =>
      intro other
      simp only [receive, dequeuedOf, List.filterMap_append, PriorityTable.set_apply]
      by_cases here : other = priority
      · subst here
        simp [ofClass]
      · rw [if_neg here]
        simp only [ofClass, Ne.symm here, List.filterMap_cons, List.filterMap_nil, if_false,
          List.append_nil]
        exact keeps other
  | record place room =>
      obtain ⟨_, _, _, dequeued, _⟩ := recordPacket_frame state _ _ _
      exact same (recordPacket_lastIds _ _ _ _) dequeued
  | arrive | disconnect | tick | stop | takeEvent | enter | quit | leave | skip | close | measure | judge
  | sent | wouldBlock | failed => exact same rfl rfl

/-- Packets of a class are received, and wait, in the order of their numbers; the check
passes the next one. -/
structure InSequence (state : State) : Prop where
  ascending : ∀ priority, ((state.flow priority).map Packet.id).Pairwise (· < ·)
  check : ∀ priority, ∀ packet ∈ (state.queue priority).head?, ¬ state.OutOfOrder priority packet

theorem inSequence_of_ascending {state : State} (keeps : state.KeepsLast)
    (ascending : ∀ priority, ((state.flow priority).map Packet.id).Pairwise (· < ·)) :
    state.InSequence where
  ascending := ascending
  check := by
    rintro priority packet waits ⟨seen, late⟩
    rw [keeps priority] at seen late
    cases last : (state.dequeuedOf priority).getLast? with
    | none =>
        rw [last] at seen
        exact seen rfl
    | some before =>
        rw [last, Option.map_some, Option.getD_some] at late
        have sorted := ascending priority
        rw [flow, List.map_append, List.pairwise_append] at sorted
        refine absurd (sorted.2.2 before.id ?_ packet.id ?_) (Nat.not_lt.mpr late)
        · exact List.mem_map_of_mem (List.mem_of_getLast? last)
        · exact List.mem_map_of_mem (List.mem_of_head? waits)

end Egress.State

/-! ## Lines -/

namespace Pipeline

variable {line : LineStage}

/-- The packets that entered the scheduler have ascending numbers, all of them used. -/
def Front.Ascending (front : Front line.toStage) : Prop :=
  ∀ priority, ((line.line front.2 priority).map Packet.id).Pairwise (· < ·) ∧
    ∀ packet ∈ line.line front.2 priority, packet.id < packetCount front

/-- What a step appends to the line of a class: the packet of the class that was read in
it, unless the ingress dropped it. -/
structure Appends (state : Front line.toStage) (read : Option Packet) (next : Front line.toStage)
    (priority : Priority) (new : List Packet) : Prop where
  appended : line.line next.2 priority = line.line state.2 priority ++ new
  part : new.Sublist ((read.map Packet.classed).bind (ofClass priority)).toList
  dropped : (next.1.queues priority).dropCounter + new.length = (state.1.queues priority).dropCounter +
    ((read.map Packet.classed).bind (ofClass priority)).toList.length

theorem line_step {state next : Front line.toStage} {action : FrontAction line.toStage}
    (kept : state.Kept) (stepped : (front line.toStage).step state action = some next)
    (collector : MetricsCollector.State) (priority : Priority) :
    ∃ new, Appends state (reads ((state, collector) : State line.toStage) (.inl action)) next priority
      new := by
  have kept' := front_kept kept stepped
  cases Link.step_moves stepped with
  | @send action ingress reached served ran =>
      have hands := Ingress.State.step_hands (Ingress.State.serve_step served)
      have receives {receiver next : line.State} {message : Signal ⊕ line.Action}
          (listed : message ∈ (told action.announces state.1.queues ingress.queues).map .inl)
          (holds : line.Kept receiver) (moved : line.moves receiver message = some next) :
          line.line next = noteArrival (line.line receiver) message := by
        obtain ⟨signal, _, rfl⟩ := List.mem_map.mp listed
        exact funext (line.extends_line holds moved)
      have noted := Link.noted_run line.moves_kept receives kept.scheduler ran
      have announced := announces_arrival (.inl action : FrontAction line.toStage)
      refine ⟨(ingress.queues priority).since (state.1.queues priority), ?_, ?_, ?_⟩
      · rw [← accepted_ofClass]
        exact (congrFun noted priority).trans (foldl_arrival announced _ _ _ priority)
      · exact OutputQueue.since_sublist (hands.grown priority) (hands.handedOf priority)
      · exact OutputQueue.dropCounter_since (hands.grown priority) (kept.routed.counted priority)
          (kept'.routed.counted priority) (hands.handedOf priority)
  | @alone action reached own moved =>
      refine ⟨_, line.extends_line kept.scheduler moved priority, ?_, ?_⟩
      · cases action with
        | inl signal => cases own
        | inr inner => exact List.Sublist.refl _
      · cases action with
        | inl signal => cases own
        | inr inner => rfl

theorem step_ascending {state next : Front line.toStage} {action : FrontAction line.toStage}
    (kept : state.Kept) (numbered : state.Numbered) (ascending : state.Ascending)
    (stepped : (front line.toStage).step state action = some next)
    (collector : MetricsCollector.State) : next.Ascending := by
  intro priority
  have numbers := front_numbers kept numbered stepped collector
  obtain ⟨new, appends⟩ := line_step kept stepped collector priority
  have sublist := appends.part.trans (classed_sublist _ priority)
  obtain ⟨sorted, below⟩ := ascending priority
  have latest (packet : Packet) (listed : packet ∈ new) : packet.id = packetCount state ∧
      packetCount state < packetCount next := by
    have read := Option.mem_toList.mp (sublist.mem listed)
    refine ⟨numbers.id packet read, ?_⟩
    rw [numbers.count, Option.mem_def.mp read]
    exact Nat.lt_succ_self _
  have single (read : Option Packet) : (read.toList.map Packet.id).Pairwise (· < ·) := by
    cases read <;> simp
  rw [appends.appended]
  refine ⟨?_, ?_⟩
  · rw [List.map_append, List.pairwise_append]
    refine ⟨sorted, (single _).sublist (sublist.map Packet.id), ?_⟩
    intro earlier inLine later inNew
    obtain ⟨packet, listed, rfl⟩ := List.mem_map.mp inLine
    obtain ⟨added, isNew, rfl⟩ := List.mem_map.mp inNew
    rw [(latest added isNew).1]
    exact below packet listed
  · intro packet listed
    rcases List.mem_append.mp listed with old | isNew
    · rw [numbers.count]
      exact Nat.lt_add_right _ (below packet old)
    · rw [(latest packet isNew).1]
      exact (latest packet isNew).2

structure Ordered (state : State line.toStage) : Prop where
  kept : Kept state
  joined : Joined state
  numbered : Front.Numbered state.1
  ascending : Front.Ascending state.1
  last : state.egress.KeepsLast

theorem step_ordered {state next : State line.toStage} {action : Action line.toStage}
    (ordered : Ordered state) (stepped : step line.toStage state action = some next) : Ordered next := by
  have keepsLast {collector after : MetricsCollector.State}
      {action : Signal ⊕ MetricsCollector.Work} (keeps : collector.egress.KeepsLast)
      (moved : MetricsCollector.moves collector action = some after) : after.egress.KeepsLast := by
    rcases (MetricsCollector.moves_moved moved).egress_or with
      ⟨_, egress, _, egressStepped, _, rfl⟩ | ⟨_, _, events, unchanged⟩
    · exact Egress.State.step_keepsLast keeps egressStepped
    · rw [unchanged]
      exact keeps
  refine ⟨step_kept ordered.kept stepped, step_joined ordered.kept ordered.joined stepped, ?_, ?_, ?_⟩
  · cases Link.step_moves stepped with
    | send moved told =>
        exact (front_numbers ordered.kept.front ordered.numbered moved state.2).numbered
    | alone => exact ordered.numbered
  · cases Link.step_moves stepped with
    | send moved told =>
        exact step_ascending ordered.kept.front ordered.numbered ordered.ascending moved state.2
    | alone => exact ordered.ascending
  · exact @Link.downstream_kept _ _ _ _ (link line.toStage)
      (fun collector => collector.egress.KeepsLast) keepsLast _ _ _ ordered.last stepped

theorem start_ordered (registrations : List Registration)
    (socketMap : PriorityTable (Option (List Egress.Socket))) :
    Ordered (start line.toStage registrations socketMap) := by
  have booked := @start_booked line.toStage registrations socketMap
  refine ⟨booked.kept, booked.joined, booked.numbered, ?_, fun _ => rfl⟩
  intro priority
  change ((line.line line.initial priority).map Packet.id).Pairwise (· < ·) ∧
    ∀ packet ∈ line.line line.initial priority, packet.id < _
  rw [line.initial_line]
  exact ⟨List.Pairwise.nil, by simp⟩

/-- What the egress sees of a class is part of the line of the scheduler. -/
theorem Ordered.inSequence {state : State line.toStage} (ordered : Ordered state) :
    state.egress.InSequence := by
  refine Egress.State.inSequence_of_ascending ordered.last fun priority => ?_
  rw [← congrFun ordered.joined priority]
  have sent := (OutputQueue.sent_sublist_handed _).trans
    (line.handed_line ordered.kept.front.scheduler priority).sublist
  exact (ordered.ascending priority).1.sublist (sent.map Packet.id)

end Pipeline

/-- The schedulers of one thread. -/
theorem PipelineConfig.exists_lineStage (config : PipelineConfig)
    (single : config.scheduler = .single ∨ config.scheduler = .singleCpuEdf) :
    ∃ line : LineStage, line.toStage = config.stage := by
  rcases single with kind | kind
  · exact ⟨Edf.lineStage, by rw [PipelineConfig.stage, kind]; rfl⟩
  · exact ⟨SingleCpu.lineStage config.registrations, by rw [PipelineConfig.stage, kind]; rfl⟩

open Pipeline in
/-- With the schedulers of one thread the packets of a class leave in the order they were
read, whatever is dropped at either stage: the egress never finds one out of order. -/
theorem PipelineConfig.leaves_in_order (config : PipelineConfig)
    (single : config.scheduler = .single ∨ config.scheduler = .singleCpuEdf)
    (actions : List (Pipeline.Action config.stage)) :
    Throughout (Pipeline.step config.stage) (fun state => state.egress.InSequence) config.start
      actions := by
  obtain ⟨line, same⟩ := config.exists_lineStage single
  rw [PipelineConfig.start]
  revert actions
  rw [← same]
  intro actions
  exact throughout_invariant step_ordered Ordered.inSequence
    (start_ordered config.registrations outputSocketMap) actions

/-- Two of three packets leave, and one was dropped between them. -/
theorem three_datagrams_in_order :
    Throughout (Pipeline.step PipelineConfig.default.stage) (fun state => state.egress.InSequence)
        PipelineConfig.default.start (Pipeline.firstSent ++ Pipeline.nextSent) ∧
      (run (Pipeline.step PipelineConfig.default.stage) PipelineConfig.default.start
          (Pipeline.firstSent ++ Pipeline.nextSent)).map (fun state =>
            ((state.egress.dequeuedOf .high).map Packet.id,
              (state.ingress.queues .high).dropCounter)) =
        some ([0, 2], 1) :=
  ⟨PipelineConfig.default.leaves_in_order (.inl rfl) _, by decide +kernel⟩

end EdfPipeline
