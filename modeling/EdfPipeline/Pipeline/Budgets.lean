import EdfPipeline.Metrics.Tally
import EdfPipeline.Pipeline.Config

/-!
# Budgets across the pipeline

The packets the egress receives on the channels of a class are of that class and
carry its budget, so a deadline that was not missed means a latency within what
the statistics report as expected for the class.
-/

set_option autoImplicit false

namespace EdfPipeline

open TransitionSystem

/-! ## Events of the egress -/

namespace Egress

/-- What is measured and judged is a packet with the budget of the class, and what is
recorded as in time was. -/
def Pc.Fair (budgets : PriorityTable Duration) (clock : Instant) : Pc → Prop
  | .measure _ priority packet => packet.latencyBudget = budgets priority
  | .judge _ priority packet latency =>
      packet.latencyBudget = budgets priority ∧ latency ≤ clock - packet.timestamp
  | .record _ _ event => event.deadlineMissed = false → event.latency ≤ budgets event.priority
  | .top | .poll _ | .send _ _ _ | .returned => True

theorem Pc.Fair.later {budgets : PriorityTable Duration} {clock later : Instant} {pc : Pc}
    (fair : pc.Fair budgets clock) (passes : clock ≤ later) : pc.Fair budgets later := by
  cases pc with
  | judge rest priority packet latency =>
      exact ⟨fair.1, fair.2.trans (Nat.sub_le_sub_right passes _)⟩
  | top | poll | measure | record | send | returned => exact fair

namespace State

theorem recordPacket_fair (state : State) (rest : List Priority) (packet : Packet)
    (event : MetricsEvent) (budgets : PriorityTable Duration) (clock : Instant) :
    (state.recordPacket rest packet event).pc.Fair budgets clock := by
  obtain ⟨_, _, _, _, reached⟩ := recordPacket_frame state rest packet event
  rcases reached with polling | ⟨socket, sending⟩
  · rw [polling]
    trivial
  · rw [sending]
    trivial

/-- The clock only advances between the measurement and the judgement. -/
theorem step_fair {budgets : PriorityTable Duration} {state next : State} {action : Action}
    (budgeted : ∀ priority, ∀ packet ∈ state.queue priority, packet.latencyBudget = budgets priority)
    (fair : state.pc.Fair budgets state.clock) (stepped : state.step action = some next) :
    next.pc.Fair budgets next.clock := by
  cases step_moves stepped with
  | arrive | disconnect | stop | takeEvent | wouldBlock => exact fair
  | tick => exact fair.later (Nat.le_add_right _ _)
  | @receive priority rest packet remaining place received =>
      refine budgeted priority packet ?_
      rw [queue, (Channel.tryRecv_ok received).1]
      exact List.mem_cons_self
  | measure place =>
      rw [place] at fair
      exact ⟨fair, Nat.le_refl _⟩
  | @judge rest priority packet latency place =>
      rw [place] at fair
      obtain ⟨budget, measured⟩ := fair
      intro inTime
      have notLate : state.clock ≤ packet.timestamp + packet.latencyBudget :=
        Nat.not_lt.mp (of_decide_eq_false inTime)
      exact measured.trans (budget ▸ Nat.sub_le_iff_le_add'.mpr notLate)
  | record place room => exact recordPacket_fair _ _ _ _ _ _
  | enter | quit | leave | skip | close | sent | failed => trivial

theorem records_fair {budgets : PriorityTable Duration} {state : State} {action : Action}
    {event : MetricsEvent} (fair : state.pc.Fair budgets state.clock)
    (records : state.records action = some event) (inTime : event.deadlineMissed = false) :
    event.latency ≤ budgets event.priority := by
  unfold State.records at records
  split at records
  · split at records
    · rename_i place
      split at records
      · cases records
        rw [place] at fair
        exact fair inTime
      · cases records
    · cases records
  · cases records

end State

end Egress

namespace Pipeline

variable {registrations : List Registration} {stage : ClassStage registrations}

/-- An ingress that is started knows the sockets. -/
def Front.Known (front : Front stage.toStage) : Prop :=
  stage.readsSockets = false → Ingress.Settled registrations front.1

theorem front_known {state next : Front stage.toStage} {action : FrontAction stage.toStage}
    (known : state.Known) (stepped : (front stage.toStage).step state action = some next) :
    next.Known := by
  intro passive
  cases Link.step_moves stepped with
  | @send action ingress reached served told =>
      refine (known passive).step ?_ (Ingress.State.serve_step served)
      cases action with
      | addSocket => cases served
      | tick | stop | run | recv => rfl
  | alone => exact known passive

/-- Whoever reads the sockets, a packet carries the budget of a socket of its class. -/
theorem reads_budget {state next : Front stage.toStage} {action : FrontAction stage.toStage}
    (kept : state.Kept) (known : state.Known)
    (stepped : (front stage.toStage).step state action = some next)
    (collector : MetricsCollector.State) {packet : Packet}
    (read : reads ((state, collector) : State stage.toStage) (.inl action) = some packet) :
    BudgetFrom registrations packet := by
  cases Link.step_moves stepped with
  | @send action ingress reached served told =>
      cases started : stage.readsSockets with
      | true => cases (unstarted_step (kept.unstarted started) served).2.2.symm.trans read
      | false => exact (known started).received (Ingress.State.serve_step served) read
  | @alone action reached own moved =>
      cases action with
      | inl signal => cases own
      | inr inner => exact stage.budget kept.scheduler read

/-- The event a step of the egress records. -/
abbrev eventOf {stage : Stage} : State stage → Action stage → Option Egress.MetricsEvent :=
  behind MetricsCollector.State.records

/-- What the egress receives on the channel of a class is of that class and has its
budget, and a packet recorded as in time took no longer. -/
structure WithinBudgets {stage : Stage} (budgets : PriorityTable Duration)
    (history : State stage × Past (State stage) (Action stage)) : Prop where
  classes : ∀ priority, ∀ packet ∈ history.1.egress.flow priority,
    packet.priority = priority ∧ packet.latencyBudget = budgets priority
  inTime : ∀ event ∈ observed eventOf history.2, event.deadlineMissed = false →
    event.latency ≤ budgets event.priority

/-- All sockets of a class have the budget of the class. -/
def Uniform (registrations : List Registration) (budgets : PriorityTable Duration) : Prop :=
  ∀ registration ∈ registrations, registration.latencyBudget = budgets registration.priority

structure Judging (budgets : PriorityTable Duration)
    (history : State stage.toStage × Past (State stage.toStage) (Action stage.toStage)) : Prop where
  booked : Booked history
  known : Front.Known history.1.1
  read : ∀ packet ∈ observed reads history.2, BudgetFrom registrations packet
  fair : history.1.egress.pc.Fair budgets history.1.egress.clock
  inTime : ∀ event ∈ observed eventOf history.2, event.deadlineMissed = false →
    event.latency ≤ budgets event.priority

variable {budgets : PriorityTable Duration}

theorem Judging.classes
    {history : State stage.toStage × Past (State stage.toStage) (Action stage.toStage)}
    (judging : Judging budgets history) (uniform : Uniform registrations budgets) (priority : Priority) :
    ∀ packet ∈ history.1.egress.flow priority,
      packet.priority = priority ∧ packet.latencyBudget = budgets priority := by
  intro packet flows
  rw [← congrFun judging.booked.joined priority] at flows
  have handed := (OutputQueue.sent_sublist_handed _).mem flows
  have own := stage.own judging.booked.kept.front.scheduler priority packet handed
  have inAll : packet ∈ handedAll (stage.outputs history.1.scheduler) :=
    Multiset.mem_sum.mpr ⟨priority, Finset.mem_univ priority, handed⟩
  have read : packet ∈ observed reads history.2 := by
    rw [← Multiset.mem_coe, judging.booked.contents]
    exact Multiset.mem_add.mpr (.inr (Multiset.mem_add.mpr (.inr inAll)))
  obtain ⟨registration, known, class_, budget⟩ := judging.read packet read
  refine ⟨own, ?_⟩
  rw [← budget, uniform registration known, class_, own]

theorem step_judging (uniform : Uniform registrations budgets)
    {history next : State stage.toStage × Past (State stage.toStage) (Action stage.toStage)}
    {action : Action stage.toStage} (judging : Judging budgets history)
    (stepped : recorded (step stage.toStage) history action = some next) : Judging budgets next := by
  have booked := step_booked judging.booked stepped
  obtain ⟨after, past⟩ := next
  obtain ⟨moved, rfl⟩ := recorded_eq_some.mp stepped
  have moves := Link.step_moves moved
  refine ⟨booked, ?_, forall_observed judging.read ?_, ?_, forall_observed judging.inTime ?_⟩
  · cases moves with
    | send frontMoved told => exact front_known judging.known frontMoved
    | alone => exact judging.known
  · intro packet read
    cases moves with
    | send frontMoved told =>
        exact reads_budget judging.booked.kept.front judging.known frontMoved history.1.2 read
    | alone => cases read
  · cases moves with
    | send frontMoved told =>
        obtain ⟨place, passes⟩ := MetricsCollector.signals_place told
        exact place ▸ judging.fair.later passes
    | @alone inner reached own alone =>
        rcases (MetricsCollector.moves_moved alone).egress_or with
          ⟨_, egress, _, egressStepped, _, rfl⟩ | ⟨_, _, events, unchanged⟩
        · refine Egress.State.step_fair ?_ judging.fair egressStepped
          intro priority packet waits
          exact (judging.classes uniform priority packet (List.mem_append_right _ waits)).2
        · change reached.egress.pc.Fair budgets reached.egress.clock
          rw [unchanged]
          exact judging.fair
  · intro event records
    cases action with
    | inl action => cases records
    | inr action =>
        obtain ⟨inner, _, recorded⟩ := Option.bind_eq_some_iff.mp records
        exact Egress.State.records_fair judging.fair recorded

theorem start_judging (socketMap : PriorityTable (Option (List Egress.Socket))) :
    Judging budgets (start stage.toStage registrations socketMap, []) where
  booked := start_booked registrations socketMap
  known passive := by
    have started : startIngress stage.toStage registrations = .configured registrations := by
      rw [startIngress, passive]
      rfl
    rw [start, started]
    exact Ingress.configured_settled registrations
  read := by simp [observed]
  fair := trivial
  inTime := by simp [observed]

theorem Judging.withinBudgets
    {history : State stage.toStage × Past (State stage.toStage) (Action stage.toStage)}
    (uniform : Uniform registrations budgets) (judging : Judging budgets history) :
    WithinBudgets budgets history :=
  ⟨judging.classes uniform, judging.inTime⟩

end Pipeline

/-! ## As configured -/

theorem Pipeline.expected_latencies_are_budgets :
    Pipeline.expectedLatencies = Pipeline.latencyTable := by
  funext priority
  revert priority
  decide

theorem PipelineConfig.registrations_uniform (config : PipelineConfig) :
    Pipeline.Uniform config.registrations Pipeline.expectedLatencies := by
  rw [Pipeline.expected_latencies_are_budgets]
  intro registration listed
  obtain ⟨socket, known, rfl⟩ := List.mem_map.mp listed
  have sockets : ∀ socket ∈ Pipeline.inputSockets,
      socket.latencyBudget = Pipeline.latencyTable socket.priority := by
    decide
  exact sockets socket known

/-- Every scheduler but MC-EDF keeps to the classes. -/
theorem PipelineConfig.exists_classStage (config : PipelineConfig)
    (keepsClasses : config.scheduler ≠ .mcEdfElastic) :
    ∃ stage : ClassStage config.registrations, stage.toStage = config.stage := by
  cases kind : config.scheduler with
  | single => exact ⟨Edf.classStage _, by rw [PipelineConfig.stage, kind]; rfl⟩
  | multiWorker => exact ⟨MultiWorker.classStage _, by rw [PipelineConfig.stage, kind]; rfl⟩
  | global => exact ⟨Gedf.classStage _ _ _, by rw [PipelineConfig.stage, kind]; rfl⟩
  | globalVD => exact ⟨Gedf.classStage _ _ _, by rw [PipelineConfig.stage, kind]; rfl⟩
  | clairvoyant => exact ⟨Cedf.classStage _ _, by rw [PipelineConfig.stage, kind]; rfl⟩
  | mcEdfElastic => exact absurd kind keepsClasses
  | singleCpuEdf => exact ⟨SingleCpu.classStage _, by rw [PipelineConfig.stage, kind]; rfl⟩

open Pipeline in
/-- With every scheduler but MC-EDF, the egress receives each packet in its own class,
with the budget of the class, and a packet recorded as in time had a latency within
what the statistics report as expected for its class. -/
theorem PipelineConfig.recorded_within_expected (config : PipelineConfig)
    (keepsClasses : config.scheduler ≠ .mcEdfElastic) (actions : List (Pipeline.Action config.stage)) :
    Throughout (recorded (Pipeline.step config.stage)) (WithinBudgets expectedLatencies)
      (config.start, []) actions := by
  obtain ⟨stage, same⟩ := config.exists_classStage keepsClasses
  rw [PipelineConfig.start]
  revert actions
  rw [← same]
  intro actions
  exact throughout_invariant (step_judging config.registrations_uniform)
    (Judging.withinBudgets config.registrations_uniform) (start_judging outputSocketMap) actions

open Pipeline in
theorem one_datagram_within_expected :
    PipelineConfig.default.scheduler ≠ .mcEdfElastic ∧
      Throughout (recorded (Pipeline.step PipelineConfig.default.stage)) (WithinBudgets expectedLatencies)
        (PipelineConfig.default.start, []) oneDatagram ∧
      (TransitionSystem.run (recorded (Pipeline.step PipelineConfig.default.stage))
          (PipelineConfig.default.start, []) oneDatagram).map (fun history => observed eventOf history.2) =
        some [{ priority := .high, latency := 100000, deadlineMissed := false }] :=
  ⟨by decide, PipelineConfig.default.recorded_within_expected (by decide) oneDatagram, by decide +kernel⟩

end EdfPipeline
