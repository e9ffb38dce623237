import EdfPipeline.Ingress.Visits
import EdfPipeline.Registration

/-!
# Latency budgets at the ingress

A class has one flow state, made when its first socket is added. Every packet of
the class carries the budget of that socket, whichever socket it was read from.
-/

set_option autoImplicit false

namespace EdfPipeline.Ingress

open TransitionSystem

def Action.registration : Action → Option Registration
  | .addSocket socket priority latencyBudget quantum =>
      some { socket, priority, latencyBudget, quantum }
  | _ => none

/-- The calls of `add_socket` so far. -/
def registrations (past : Past State Action) : List Registration :=
  observed (fun _ => Action.registration) past

namespace State

/-- The packet made of a datagram read now. -/
def packet (state : State) (priority : Priority) (payload : List UInt8) : Packet :=
  Packet.fromBuffer state.nextPacketId state.clock priority payload
    (((state.flowStates priority).map FlowState.latencyBudget).getD 0)

def readingAt (state : State) : Action → Option Reading
  | .recv (.datagram (byte :: bytes)) _ =>
      match state.pc with
      | .receive _ visit (socket :: rest) _ =>
          some {
            priority := visit.priority
            place := visit.sockets.length - (rest.length + 1)
            socket
            packet := state.packet visit.priority (byte :: bytes) }
      | _ => none
  | _ => none

def CarriesBudgets (history : State × Past State Action) : Prop :=
  ∀ reading ∈ observed readingAt history.2, reading.CarriesBudget (registrations history.2)

end State

/-! ## The first registration of a class -/

/-- Packets can be read from a class whose first quantum is not 0. -/
def Readable (registrations : List Registration) (priority : Priority) : Prop :=
  ∃ first ∈ (registeredFor priority registrations).head?, first.quantum % wordBound ≠ 0

/-- The flow states are those of the first registrations, and only those that can be
read from get credit. -/
structure State.Registered (state : State) (registrations : List Registration) : Prop where
  sockets : ∀ priority,
    state.socketConfigs priority = (registeredFor priority registrations).map Registration.socket
  flows : ∀ priority, (state.flowStates priority).map (fun flow => (flow.quantum, flow.latencyBudget)) =
    (registeredFor priority registrations).head?.map fun first => (first.quantum, first.latencyBudget)
  idle : ∀ priority flow, state.flowStates priority = some flow → flow.quantum % wordBound = 0 →
    flow.deficit = 0

/-- What a round and a visit look at was registered. -/
def Round.Known (configs : PriorityTable (List Socket)) (round : Round) : Prop :=
  ∀ priority sockets, round.snapshotMap priority = some sockets → sockets <+: configs priority

structure Visit.Known (configs : PriorityTable (List Socket)) (readable : Priority → Prop)
    (visit : Visit) : Prop where
  sockets : visit.sockets <+: configs visit.priority
  readable : readable visit.priority

def Pc.Known (configs : PriorityTable (List Socket)) (readable : Priority → Prop) : Pc → Prop
  | .top | .returned => True
  | .flow round => round.Known configs
  | .visit round current => round.Known configs ∧ current.Known configs readable
  | .poll round current rest _ | .receive round current rest _ =>
      round.Known configs ∧ current.Known configs readable ∧ rest <:+ current.sockets

theorem Round.Known.mono {configs configs' : PriorityTable (List Socket)} {round : Round}
    (known : round.Known configs) (more : ∀ priority, configs priority <+: configs' priority) :
    round.Known configs' :=
  fun priority sockets snapshot => (known priority sockets snapshot).trans (more priority)

theorem Visit.Known.mono {configs configs' : PriorityTable (List Socket)}
    {readable readable' : Priority → Prop} {visit : Visit} (known : visit.Known configs readable)
    (more : ∀ priority, configs priority <+: configs' priority)
    (still : ∀ priority, readable priority → readable' priority) : visit.Known configs' readable' :=
  ⟨known.sockets.trans (more _), still _ known.readable⟩

/-- What was registered stays registered. -/
theorem Pc.Known.mono {configs configs' : PriorityTable (List Socket)}
    {readable readable' : Priority → Prop} {pc : Pc} (known : pc.Known configs readable)
    (more : ∀ priority, configs priority <+: configs' priority)
    (still : ∀ priority, readable priority → readable' priority) : pc.Known configs' readable' := by
  cases pc with
  | top | returned => trivial
  | flow round => exact Round.Known.mono known more
  | visit round visit => exact ⟨known.1.mono more, known.2.mono more still⟩
  | poll round visit rest readAny | receive round visit rest readAny =>
      exact ⟨known.1.mono more, known.2.1.mono more still, known.2.2⟩

/-- A packet that carries the budget of the first socket of its class. -/
def FirstBudget (registrations : List Registration) (reading : Reading) : Prop :=
  ∃ first registration, (registeredFor reading.priority registrations).head? = some first ∧
    first.quantum % wordBound ≠ 0 ∧
    (registeredFor reading.priority registrations)[reading.place]? = some registration ∧
    registration.socket = reading.socket ∧ reading.packet.latencyBudget = first.latencyBudget

structure Budgeted (history : State × Past State Action) : Prop where
  registered : history.1.Registered (registrations history.2)
  known : history.1.pc.Known history.1.socketConfigs (Readable (registrations history.2))
  readings : ∀ reading ∈ observed State.readingAt history.2,
    FirstBudget (registrations history.2) reading

theorem initial_budgeted : Budgeted (State.initial, []) where
  registered := ⟨fun _ => rfl, fun _ => rfl, nofun⟩
  known := trivial
  readings := nofun

theorem head?_registeredFor_append {priority : Priority} {registrations : List Registration}
    {first : Registration} (found : (registeredFor priority registrations).head? = some first)
    (later : List Registration) : (registeredFor priority (registrations ++ later)).head? = some first := by
  rw [List.head?_eq_getElem?] at found ⊢
  exact registeredFor_getElem?_append found later

theorem FirstBudget.append {registrations : List Registration} {reading : Reading}
    (budget : FirstBudget registrations reading) (later : List Registration) :
    FirstBudget (registrations ++ later) reading := by
  obtain ⟨first, registration, head, usable, place, socket, carried⟩ := budget
  exact ⟨first, registration, head?_registeredFor_append head later, usable,
    registeredFor_getElem?_append place later, socket, carried⟩

theorem Readable.append {registrations : List Registration} {priority : Priority}
    (readable : Readable registrations priority) (later : List Registration) :
    Readable (registrations ++ later) priority := by
  obtain ⟨first, head, usable⟩ := readable
  exact ⟨first, head?_registeredFor_append head later, usable⟩

/-- Steps that register nothing and read nothing. -/
theorem Budgeted.quiet {state next : State} {past : Past State Action} {action : Action}
    (budgeted : Budgeted (state, past)) (silent : action.registration = none)
    (dry : state.readingAt action = none)
    (registered : next.Registered (registrations past))
    (known : next.pc.Known next.socketConfigs (Readable (registrations past))) :
    Budgeted (next, past ++ [(state, action)]) := by
  have same : registrations (past ++ [(state, action)]) = registrations past := observed_none silent
  refine ⟨?_, ?_, ?_⟩
  · rw [same]
    exact registered
  · rw [same]
    exact known
  · rw [same, observed_none dry]
    exact budgeted.readings

/-! ## Steps -/

namespace State

theorem Registered.same {state next : State} {registrations : List Registration}
    (registered : state.Registered registrations)
    (configs : next.socketConfigs = state.socketConfigs)
    (flows : next.flowStates = state.flowStates) : next.Registered registrations where
  sockets := configs ▸ registered.sockets
  flows := flows ▸ registered.flows
  idle := flows ▸ registered.idle

theorem Registered.setDeficit {state : State} {registrations : List Registration}
    (registered : state.Registered registrations) {priority : Priority} {deficit : Nat}
    (idle : ∀ flow, state.flowStates priority = some flow → flow.quantum % wordBound = 0 →
      deficit = 0) : (state.setDeficit priority deficit).Registered registrations where
  sockets := registered.sockets
  flows other := by
    rw [← registered.flows other]
    simp only [State.setDeficit, PriorityTable.set_apply]
    split
    · rename_i here
      subst here
      rw [Option.map_map]
      rfl
    · rfl
  idle other flow found unread := by
    simp only [State.setDeficit, PriorityTable.set_apply] at found
    split at found
    · obtain ⟨before, present, rfl⟩ := Option.map_eq_some_iff.mp found
      exact idle before present unread
    · exact registered.idle other flow found unread

theorem addSocket_registered {state : State} {registrations : List Registration}
    (registered : state.Registered registrations) (registration : Registration) :
    (state.addSocket registration.socket registration.priority registration.latencyBudget
      registration.quantum).Registered (registrations ++ [registration]) where
  sockets priority := by
    rw [registeredFor_concat, List.map_append, ← registered.sockets]
    simp only [addSocket, PriorityTable.set_apply]
    by_cases here : priority = registration.priority
    · simp [here]
    · simp [here, Ne.symm here]
  flows priority := by
    rw [registeredFor_concat]
    by_cases here : priority = registration.priority
    · subst here
      have flows := registered.flows registration.priority
      simp only [addSocket, PriorityTable.set_self, if_true, Option.map_some]
      cases first : (registeredFor registration.priority registrations).head? with
      | none =>
          rw [first, Option.map_none, Option.map_eq_none_iff] at flows
          rw [flows, List.head?_eq_none_iff.mp first]
          rfl
      | some earliest =>
          rw [first] at flows
          obtain ⟨flow, present, same⟩ := Option.map_eq_some_iff.mp flows
          rw [present, List.head?_append, first, Option.getD_some, same]
          rfl
    · rw [if_neg (Ne.symm here), List.append_nil, ← registered.flows priority]
      simp only [addSocket, PriorityTable.set_other here]
  idle priority flow found unread := by
    simp only [addSocket, PriorityTable.set_apply] at found
    split at found
    · rename_i here
      cases before : state.flowStates registration.priority with
      | none =>
          rw [before] at found
          cases found
          rfl
      | some flow' =>
          rw [before] at found
          cases found
          exact registered.idle registration.priority _ before unread
    · exact registered.idle priority flow found unread

/-- The flow of a class that can be read from has the quantum and budget of its first socket. -/
theorem Registered.flow {state : State} {registrations : List Registration}
    (registered : state.Registered registrations) {priority : Priority} {first : Registration}
    (head : (registeredFor priority registrations).head? = some first) :
    ∃ flow, state.flowStates priority = some flow ∧ flow.quantum = first.quantum ∧
      flow.latencyBudget = first.latencyBudget := by
  have flows := registered.flows priority
  rw [head] at flows
  obtain ⟨flow, present, same⟩ := Option.map_eq_some_iff.mp flows
  exact ⟨flow, present, (Prod.ext_iff.mp same).1, (Prod.ext_iff.mp same).2⟩

theorem Registered.readable {state : State} {registrations : List Registration}
    (registered : state.Registered registrations) {priority : Priority} {flow : FlowState}
    (present : state.flowStates priority = some flow) :
    Readable registrations priority ↔ flow.quantum % wordBound ≠ 0 := by
  have flows := registered.flows priority
  rw [present] at flows
  obtain ⟨first, head, same⟩ := Option.map_eq_some_iff.mp flows.symm
  have quantum : first.quantum = flow.quantum := (Prod.ext_iff.mp same).1
  constructor
  · rintro ⟨other, head', usable⟩
    cases head.symm.trans head'
    exact quantum ▸ usable
  · intro usable
    exact ⟨first, head, quantum ▸ usable⟩

/-- What is read now carries the budget of the first socket. -/
theorem Registered.firstBudget {state : State} {registrations : List Registration}
    (registered : state.Registered registrations) {visit : Visit} {socket : Socket}
    {rest : List Socket} (known : visit.Known state.socketConfigs (Readable registrations))
    (left : socket :: rest <:+ visit.sockets) (payload : List UInt8) :
    FirstBudget registrations {
      priority := visit.priority
      place := visit.sockets.length - (rest.length + 1)
      socket
      packet := state.packet visit.priority payload } := by
  obtain ⟨first, head, usable⟩ := known.readable
  obtain ⟨flow, present, _, budget⟩ := registered.flow head
  obtain ⟨inside, here⟩ := List.getElem?_eq_some_iff.mp (getElem?_of_suffix left)
  have seen := List.prefix_iff_getElem?.mp known.sockets _ inside
  rw [here, registered.sockets, List.getElem?_map] at seen
  obtain ⟨registration, found, same⟩ := Option.map_eq_some_iff.mp seen
  refine ⟨first, registration, head, usable, found, same, ?_⟩
  simp only [packet, Packet.fromBuffer, present, Option.map_some, Option.getD_some]
  exact budget

/-- A visit leaves credit behind only if its class can be read from. -/
theorem Registered.leave {state : State} {registrations : List Registration}
    (registered : state.Registered registrations) {round : Round} {visit : Visit}
    (known : visit.Known state.socketConfigs (Readable registrations)) :
    (state.leave round visit).Registered registrations := by
  have idle : ∀ flow, state.flowStates visit.priority = some flow → flow.quantum % wordBound = 0 →
      visit.localDeficit = 0 := by
    intro flow present unread
    exact absurd unread ((registered.readable present).mp known.readable)
  exact (registered.setDeficit idle).same rfl rfl

theorem Registered.enter {state : State} {registrations : List Registration}
    (registered : state.Registered registrations) (round : Round) {priority : Priority}
    (sockets : List Socket) {flow : FlowState} (present : state.flowStates priority = some flow) :
    (state.enter round priority sockets flow).Registered registrations := by
  have idle : ∀ other, state.flowStates priority = some other → other.quantum % wordBound = 0 →
      (flow.deficit + flow.quantum) % wordBound = 0 := by
    intro other same unread
    cases present.symm.trans same
    rw [registered.idle priority flow present unread, Nat.zero_add]
    exact unread
  have settled := registered.setDeficit idle
  simp only [State.enter]
  split <;> exact settled.same rfl rfl

theorem Registered.enter_known {state : State} {registrations : List Registration}
    (registered : state.Registered registrations) {round : Round} {priority : Priority}
    {sockets : List Socket} {flow : FlowState} (present : state.flowStates priority = some flow)
    (known : round.Known state.socketConfigs) (snapshot : round.snapshotMap priority = some sockets) :
    (state.enter round priority sockets flow).pc.Known
      (state.enter round priority sockets flow).socketConfigs (Readable registrations) := by
  have readable : (flow.deficit + flow.quantum) % wordBound ≠ 0 → Readable registrations priority := by
    intro credit
    refine (registered.readable present).mpr fun unread => credit ?_
    rw [registered.idle priority flow present unread, Nat.zero_add]
    exact unread
  simp only [State.enter]
  split
  · exact known
  · rename_i credit
    exact ⟨known, known priority sockets snapshot, readable credit⟩

end State

open State in
theorem step_budgeted {history next : State × Past State Action} {action : Action}
    (budgeted : Budgeted history) (stepped : recorded State.step history action = some next) :
    Budgeted next := by
  obtain ⟨state, past⟩ := history
  obtain ⟨after, later⟩ := next
  obtain ⟨moved, rfl⟩ := recorded_eq_some.mp stepped
  have registered : state.Registered (registrations past) := budgeted.registered
  have known : state.pc.Known state.socketConfigs (Readable (registrations past)) := budgeted.known
  have move : Move state action after := step_move moved
  cases move with
  | addSocket socket priority latencyBudget quantum =>
      have told : registrations (past ++ [(state, .addSocket socket priority latencyBudget quantum)]) =
          registrations past ++ [.mk socket priority latencyBudget quantum] := observed_some rfl
      refine ⟨?_, ?_, ?_⟩
      · rw [told]
        exact addSocket_registered registered (.mk socket priority latencyBudget quantum)
      · rw [told]
        refine known.mono ?_ fun other readable => readable.append _
        intro other
        simp only [addSocket, PriorityTable.set_apply]
        split
        · rename_i here
          exact here ▸ List.prefix_append _ _
        · exact List.prefix_refl _
      · rw [told, observed_none rfl]
        intro reading member
        exact (budgeted.readings reading member).append _
  | tick | stop | idle => exact budgeted.quiet rfl rfl (registered.same rfl rfl) known
  | quit place stopped => exact budgeted.quiet rfl rfl (registered.same rfl rfl) trivial
  | begin place running =>
      refine budgeted.quiet rfl rfl (registered.same rfl rfl) ?_
      intro priority sockets snapshot
      simp only [State.snapshot] at snapshot
      split at snapshot <;> cases snapshot
      exact List.prefix_refl _
  | skip place running missing more =>
      rw [place] at known
      exact budgeted.quiet rfl rfl (registered.same rfl rfl) known
  | enter place running following snapshot present =>
      rw [place] at known
      exact budgeted.quiet rfl rfl (registered.enter _ _ present)
        (registered.enter_known present known snapshot)
  | finish place ends => exact budgeted.quiet rfl rfl (registered.same rfl rfl) trivial
  | look place running left =>
      rw [place] at known
      exact budgeted.quiet rfl rfl (registered.same rfl rfl) ⟨known.1, known.2, List.suffix_refl _⟩
  | socket place filled running left =>
      rw [place] at known
      exact budgeted.quiet rfl rfl (registered.same rfl rfl) known
  | again place =>
      rw [place] at known
      exact budgeted.quiet rfl rfl (registered.same rfl rfl) ⟨known.1, known.2.1⟩
  | @dry round visit socket rest readAny outcome room place nothing =>
      rw [place] at known
      have unread : state.readingAt (.recv outcome room) = none := by
        unfold readingAt
        split
        · rename_i datagram
          cases datagram
          exact absurd rfl (nothing _ _)
        · rfl
      exact budgeted.quiet rfl unread (registered.same rfl rfl)
        ⟨known.1, known.2.1, (List.suffix_cons socket rest).trans known.2.2⟩
  | @read round visit socket rest readAny byte bytes room place =>
      rw [place] at known
      obtain ⟨inRound, visited, left⟩ := known
      have same : registrations (past ++ [(state, .recv (.datagram (byte :: bytes)) room)]) =
          registrations past := observed_none rfl
      refine ⟨?_, ?_, ?_⟩
      · rw [same]
        exact registered.same rfl rfl
      · rw [same]
        have stillVisited : Visit.Known state.socketConfigs (Readable (registrations past))
            { visit with localDeficit := visit.localDeficit - 1 } := ⟨visited.sockets, visited.readable⟩
        simp only [State.read]
        split
        · exact ⟨inRound, stillVisited, (List.suffix_cons socket rest).trans left⟩
        · exact ⟨inRound, stillVisited⟩
      · rw [same]
        refine forall_observed budgeted.readings ?_
        intro reading seen
        simp only [readingAt, place, Option.some.injEq] at seen
        subst seen
        exact registered.firstBudget visited left _
  | @leave round visit rest place spent =>
      have visited : round.Known state.socketConfigs ∧
          visit.Known state.socketConfigs (Readable (registrations past)) := by
        rcases place with place | place
        · rw [place] at known
          exact known
        · rw [place] at known
          exact ⟨known.1, known.2.1⟩
      exact budgeted.quiet rfl rfl (registered.leave visited.2) visited.1

/-- In every run, every packet carries the budget of the first socket of its class. -/
theorem first_budget_throughout (actions : List Action) :
    Throughout (recorded State.step) Budgeted (State.initial, []) actions :=
  throughout_invariant step_budgeted id initial_budgeted actions

end EdfPipeline.Ingress
