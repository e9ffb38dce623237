import EdfPipeline.Ingress.BudgetMismatch
import EdfPipeline.Pipeline.Stage

/-!
# What the ingress hands on

The pipeline registers its sockets before Ingress-DRR is started. From then on a
step reads one packet at most; it is numbered, and goes to the queue of its
class or is counted as dropped there.
-/

set_option autoImplicit false

namespace EdfPipeline.Ingress

open TransitionSystem

namespace State

def register (state : State) (registration : Registration) : State :=
  state.addSocket registration.socket registration.priority registration.latencyBudget
    registration.quantum

/-- The state Ingress-DRR is started in. -/
def configured (registrations : List Registration) : State := registrations.foldl register initial

theorem configured_frame (registrations : List Registration) :
    (configured registrations).queues = initial.queues ∧ (configured registrations).nextPacketId = 0 ∧
      (configured registrations).clock = 0 := by
  induction registrations using List.reverseRecOn with
  | nil => exact ⟨rfl, rfl, rfl⟩
  | append_singleton earlier last ih =>
      rw [configured, List.foldl_append]
      exact ih

theorem readingAt_class {state : State} {action : Action} {reading : Reading}
    (read : state.readingAt action = some reading) : reading.packet.priority = reading.priority := by
  unfold readingAt at read
  split at read
  · split at read
    · cases read
      rfl
    · cases read
  · cases read

/-- The packet a step makes of a datagram. -/
def received (state : State) (action : Action) : Option Packet :=
  (state.readingAt action).map Reading.packet

/-- What `recv_from` found. -/
def datagram : Action → Option (List UInt8)
  | .recv (.datagram payload) _ => some payload
  | _ => none

theorem received_buffer {state : State} {action : Action} {packet : Packet}
    (received : state.received action = some packet) :
    ∃ payload, datagram action = some payload ∧ packet.Holds payload := by
  obtain ⟨reading, read, rfl⟩ := Option.map_eq_some_iff.mp received
  unfold readingAt at read
  split at read
  · split at read
    · cases read
      exact ⟨_, rfl, rfl, rfl⟩
    · cases read
  · cases read

def elapsed : Action → Duration
  | .tick elapsed => elapsed
  | _ => 0

/-- What a step does to the queues and to the numbers of the packets. -/
structure Hands (state : State) (action : Action) (next : State) : Prop where
  clock : next.clock = state.clock + elapsed action
  grown : Grown state.queues next.queues
  handed : handedAll next.queues =
    (state.received action).elim 0 singleton + handedAll state.queues
  handedOf : ∀ priority, (next.queues priority).handed = (state.queues priority).handed ++
    (((state.received action).map Packet.classed).bind (ofClass priority)).toList
  routed : Routed state.queues → Routed next.queues
  count : next.nextPacketId = state.nextPacketId + (state.received action).toList.length
  numbered : ∀ packet ∈ state.received action, packet.id = state.nextPacketId
  taken : ∀ priority, ((next.queues priority).since (state.queues priority)).Sublist
    (state.received action).toList

theorem Hands.quiet {state next : State} {action : Action} (quiet : state.received action = none)
    (clock : next.clock = state.clock + elapsed action) (queues : next.queues = state.queues)
    (count : next.nextPacketId = state.nextPacketId) : state.Hands action next where
  clock := clock
  grown := queues ▸ .refl _
  handed := by
    rw [quiet, queues, Option.elim_none, zero_add]
  handedOf priority := by
    rw [quiet, queues]
    exact (List.append_nil _).symm
  routed := queues ▸ id
  count := by
    rw [quiet]
    exact count
  numbered := by
    rw [quiet]
    rintro packet ⟨⟩
  taken priority := by
    rw [queues, OutputQueue.since_self]
    exact List.nil_sublist _

theorem read_hands {state : State} {round : Round} {visit : Visit} {socket : Socket}
    {rest : List Socket} {readAny : Bool} {byte : UInt8} {bytes : List UInt8} {room : Bool}
    (place : state.pc = .receive round visit (socket :: rest) readAny) :
    state.Hands (.recv (.datagram (byte :: bytes)) room)
      (state.read round visit rest (byte :: bytes) room) := by
  have sees : state.received (.recv (.datagram (byte :: bytes)) room) =
      some (state.packet visit.priority (byte :: bytes)) := by
    simp only [received, readingAt, place, Option.map_some]
  have own : (state.packet visit.priority (byte :: bytes)).priority = visit.priority := rfl
  refine ⟨rfl, grown_set_trySend _ _ _ _, ?_, ?_, fun routed => routed.trySend own _, ?_, ?_, ?_⟩
  · rw [sees]
    exact handedAll_trySend _ _ _ _
  · intro priority
    rw [sees]
    exact handed_set_trySend _ _ _ _ _
  · rw [sees]
    rfl
  · rw [sees]
    rintro packet ⟨⟩
    rfl
  · rw [sees]
    exact since_set_trySend _ _ _ _

theorem received_dry (state : State) {outcome : RecvOutcome} {room : Bool} (nothing : Dry outcome) :
    state.received (.recv outcome room) = none := by
  rw [received, Option.map_eq_none_iff]
  unfold readingAt
  split
  · rename_i datagram
    cases datagram
    exact absurd rfl (nothing _ _)
  · rfl

theorem enter_frame (state : State) (round : Round) (priority : Priority) (sockets : List Socket)
    (flow : FlowState) :
    (state.enter round priority sockets flow).clock = state.clock ∧
      (state.enter round priority sockets flow).queues = state.queues ∧
        (state.enter round priority sockets flow).nextPacketId = state.nextPacketId := by
  simp only [enter]
  split <;> exact ⟨rfl, rfl, rfl⟩

theorem step_hands {state next : State} {action : Action} (stepped : state.step action = some next) :
    state.Hands action next := by
  cases step_move stepped with
  | addSocket | tick | stop | idle | quit | begin | skip | finish | look | socket | again | leave =>
      exact .quiet rfl rfl rfl rfl
  | enter =>
      obtain ⟨clock, queues, count⟩ := enter_frame state _ _ _ _
      exact .quiet rfl clock queues count
  | dry place nothing => exact .quiet (state.received_dry nothing) rfl rfl rfl
  | read place => exact read_hands place

end State

/-! ## Budgets -/

/-- After these calls of `add_socket`, and no other. -/
def Settled (registrations : List Registration) (state : State) : Prop :=
  ∃ past, Budgeted (state, past) ∧ Ingress.registrations past = registrations

theorem configured_settled (registrations : List Registration) :
    Settled registrations (.configured registrations) := by
  have ran : Ingress.run State.initial (registrations.map Action.ofRegistration) =
      some (.configured registrations) := by
    induction registrations using List.reverseRecOn with
    | nil => rfl
    | append_singleton earlier last ih =>
        have called : State.configured (earlier ++ [last]) = (State.configured earlier).register last := by
          rw [State.configured, List.foldl_append]
          rfl
        rw [List.map_append, Ingress.run, run_append, ← Ingress.run, ih, called]
        rfl
  obtain ⟨past, recordedRun⟩ := exists_recorded ran []
  refine ⟨past, run_invariant step_budgeted initial_budgeted recordedRun, ?_⟩
  rw [registrations_run recordedRun, filterMap_registration]

theorem calls_silent {past : Past State Action} {state : State} {action : Action}
    (silent : action.registration = none) :
    registrations (past ++ [(state, action)]) = registrations past := observed_none silent

theorem Settled.step {registrations : List Registration} {state next : State} {action : Action}
    (settled : Settled registrations state) (silent : action.registration = none)
    (stepped : state.step action = some next) : Settled registrations next := by
  obtain ⟨past, budgeted, told⟩ := settled
  refine ⟨_, step_budgeted budgeted (recorded_eq_some.mpr ⟨stepped, rfl⟩), ?_⟩
  exact (calls_silent silent).trans told

/-- Packets carry the budget of the first socket of their class. -/
theorem Settled.received {registrations : List Registration} {state next : State} {action : Action}
    {packet : Packet} (settled : Settled registrations state)
    (stepped : state.step action = some next) (received : state.received action = some packet) :
    BudgetFrom registrations packet := by
  obtain ⟨past, budgeted, told⟩ := settled
  obtain ⟨reading, read, rfl⟩ := Option.map_eq_some_iff.mp received
  have after := @step_budgeted (state, past) (next, past ++ [(state, action)]) action budgeted
    (recorded_eq_some.mpr ⟨stepped, rfl⟩)
  have seen : reading ∈ observed State.readingAt (past ++ [(state, action)]) := by
    rw [observed_some read]
    exact List.mem_append_right _ List.mem_cons_self
  have silent : action.registration = none := by
    cases action with
    | recv => rfl
    | addSocket | tick | stop | run => cases read
  obtain ⟨first, _, head, _, _, _, budget⟩ := after.readings reading seen
  rw [calls_silent silent, told] at head
  obtain ⟨known, class_⟩ := List.mem_filter.mp (List.mem_of_mem_head? head)
  exact ⟨first, known, (of_decide_eq_true class_).trans (State.readingAt_class read).symm, budget.symm⟩

end EdfPipeline.Ingress
