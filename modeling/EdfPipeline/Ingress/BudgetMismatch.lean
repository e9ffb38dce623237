import EdfPipeline.Ingress.Budgets
import EdfPipeline.Ingress.Rounds

/-!
# Sockets of one class with different budgets

Whatever has been registered, a round can come to any socket of a class that can
be read from. So the packets of every run carry the budgets their sockets were
registered with only if all sockets of such a class have the same one.
-/

set_option autoImplicit false

namespace EdfPipeline.Ingress

open TransitionSystem

/-- The scheduler goes on without receiving anything. -/
def Searches : Action → Prop
  | .run | .recv .wouldBlock _ => True
  | _ => False

namespace State

/-- States the scheduler gets to without receiving anything. -/
abbrev Reaches : State → State → Prop :=
  Relation.ReflTransGen fun state next => ∃ action, Searches action ∧ state.step action = some next

theorem Reaches.run {state next : State} (stepped : state.runStep = some next) :
    state.Reaches next :=
  .single ⟨.run, trivial, stepped⟩

/-- Sockets with nothing to read are passed over. -/
theorem passes_sockets {state : State} (running : state.running = true) (round : Round) {visit : Visit}
    (left : visit.localDeficit ≠ 0) (earlier rest : List Socket) :
    Reaches { state with pc := .poll round visit (earlier ++ rest) false }
      { state with pc := .poll round visit rest false } := by
  induction earlier with
  | nil => exact .refl
  | cons socket earlier ih =>
      have looked : State.runStep { state with
          pc := .poll round visit (socket :: (earlier ++ rest)) false } = some { state with
            pc := .receive round visit (socket :: (earlier ++ rest)) false } := by
        simp [runStep, running, left]
      refine (Reaches.run looked).trans (.head ⟨.recv .wouldBlock false, trivial, rfl⟩ ?_)
      exact ih

/-- The scheduler has come so far in a round that has not touched this flow. -/
structure Before (state : State) (priority : Priority) (round : Round) (next : State) : Prop where
  reached : state.Reaches next
  place : next.pc = .flow round
  running : next.running = true
  flow : next.flowStates priority = state.flowStates priority

theorem enter_visits (state : State) (round : Round) (priority : Priority) (sockets : List Socket)
    {flow : FlowState} (credit : (flow.deficit + flow.quantum) % wordBound ≠ 0) :
    (state.enter round priority sockets flow).pc =
      .visit round { priority, sockets, localDeficit := (flow.deficit + flow.quantum) % wordBound } := by
  simp only [enter]
  rw [if_neg credit]

theorem setDeficit_other (state : State) {priority other : Priority} (different : other ≠ priority)
    (deficit : Nat) : (state.setDeficit priority deficit).flowStates other = state.flowStates other :=
  PriorityTable.set_other different

theorem enter_other (state : State) (round : Round) {priority other : Priority}
    (different : other ≠ priority) (sockets : List Socket) (flow : FlowState) :
    (state.enter round priority sockets flow).flowStates other = state.flowStates other := by
  simp only [enter]
  split <;> exact setDeficit_other state different _

theorem enter_running (state : State) (round : Round) (priority : Priority) (sockets : List Socket)
    (flow : FlowState) : (state.enter round priority sockets flow).running = state.running := by
  simp only [enter]
  split <;> rfl

theorem runStep_enter {state : State} {round : Round} {priority : Priority} {sockets : List Socket}
    {flow : FlowState} (place : state.pc = .flow round) (running : state.running = true)
    (next : round.next = some priority) (snapshot : round.snapshotMap priority = some sockets)
    (registered : state.flowStates priority = some flow) :
    state.runStep = some (state.enter round priority sockets flow) := by
  have more : round.done < round.activeFlows.length := by
    by_contra ended
    rw [Round.next, if_neg ended] at next
    cases next
  have found : round.activeFlows[(round.currentIndex + round.done) % round.activeFlows.length]? =
      some priority := by
    rwa [Round.next, if_pos more] at next
  simp [runStep, place, more, running, found, snapshot, registered]

/-- The sockets before this one are found empty. -/
theorem comes_to_socket {state : State} {round : Round} {visit : Visit} {earlier rest : List Socket}
    {socket : Socket} (place : state.pc = .visit round visit) (running : state.running = true)
    (left : visit.localDeficit ≠ 0) (sockets : visit.sockets = earlier ++ socket :: rest) :
    ∃ next, state.Reaches next ∧ next.pc = .receive round visit (socket :: rest) false := by
  have looked : state.runStep =
      some { state with pc := .poll round visit (earlier ++ socket :: rest) false } := by
    simp [runStep, place, running, left, sockets]
  have passed := passes_sockets running round left earlier (socket :: rest)
  have last : State.runStep { state with pc := .poll round visit (socket :: rest) false } =
      some { state with pc := .receive round visit (socket :: rest) false } := by
    simp [runStep, running, left]
  exact ⟨_, (Reaches.run looked).trans (passed.trans (Reaches.run last)), rfl⟩

/-- The sockets of a flow are all found empty. -/
theorem passes_visit {state : State} {round : Round} {visit : Visit}
    (place : state.pc = .visit round visit) (running : state.running = true)
    (left : visit.localDeficit ≠ 0) : state.Reaches (state.leave round visit) := by
  have looked : state.runStep = some { state with pc := .poll round visit visit.sockets false } := by
    simp [runStep, place, running, left]
  have passed := passes_sockets running round left visit.sockets []
  rw [List.append_nil] at passed
  exact (Reaches.run looked).trans (passed.trans (Reaches.run rfl))

/-- Another flow is visited without receiving anything. -/
theorem passes_flow {state : State} {round : Round} {priority : Priority}
    (place : state.pc = .flow round) (running : state.running = true)
    (more : round.done < round.activeFlows.length) (other : round.next ≠ some priority) :
    ∃ next, Before state priority { round with done := round.done + 1 } next := by
  have following : round.next =
      round.activeFlows[(round.currentIndex + round.done) % round.activeFlows.length]? := if_pos more
  have skipped (stepped : state.runStep = some (state.skip round)) :
      ∃ next, Before state priority { round with done := round.done + 1 } next :=
    ⟨_, .run stepped, rfl, running, rfl⟩
  cases found : round.next with
  | none =>
      refine skipped ?_
      simp [runStep, place, more, running, ← following, found]
  | some passed =>
      have different : priority ≠ passed := fun same => other (same ▸ found)
      cases snapshot : round.snapshotMap passed with
      | none =>
          refine skipped ?_
          simp [runStep, place, more, running, ← following, found, snapshot]
      | some sockets =>
          cases registered : state.flowStates passed with
          | none =>
              refine skipped ?_
              simp [runStep, place, more, running, ← following, found, snapshot, registered]
          | some flow =>
              have entered := runStep_enter place running found snapshot registered
              have kept := enter_other state round different sockets flow
              by_cases credit : (flow.deficit + flow.quantum) % wordBound = 0
              · refine ⟨_, .run entered, ?_, ?_, kept⟩
                · simp only [enter, if_pos credit]
                  rfl
                · exact (enter_running ..).trans running
              · have running' : (state.enter round passed sockets flow).running = true :=
                  (enter_running ..).trans running
                have left := passes_visit (enter_visits _ _ _ _ credit) running' credit
                refine ⟨_, (Reaches.run entered).trans left, rfl, running', ?_⟩
                exact (setDeficit_other _ different _).trans kept

/-- No flow before the first occurrence of this one is this one. -/
theorem next_before (round : Round) {priority : Priority} (first : round.currentIndex = 0)
    (earlier : round.done < round.activeFlows.idxOf priority) : round.next ≠ some priority := by
  have more : round.done < round.activeFlows.length := lt_of_lt_of_le earlier List.idxOf_le_length
  have different : (round.activeFlows[round.done] == priority) = false :=
    List.not_of_lt_findIdx earlier
  rw [Round.next, if_pos more, first, Nat.zero_add, Nat.mod_eq_of_lt more,
    List.getElem?_eq_getElem more]
  intro same
  rw [Option.some.inj same, beq_self_eq_true] at different
  cases different

/-- A round comes to each of its flows. -/
theorem reaches_flow {state : State} {round : Round} (priority : Priority)
    (place : state.pc = .flow round) (running : state.running = true)
    (first : round.currentIndex = 0) (fresh : round.done = 0) {count : Nat}
    (inside : count ≤ round.activeFlows.idxOf priority) :
    ∃ next, Before state priority { round with done := count } next := by
  induction count with
  | zero => exact ⟨state, .refl, by rw [place, ← fresh], running, rfl⟩
  | succ count ih =>
      obtain ⟨middle, before⟩ := ih (Nat.le_of_succ_le inside)
      have more : count < round.activeFlows.length := lt_of_lt_of_le inside List.idxOf_le_length
      have other : Round.next { round with done := count } ≠ some priority :=
        next_before { round with done := count } first inside
      obtain ⟨next, after⟩ := passes_flow before.place before.running more other
      exact ⟨next, before.reached.trans after.reached, after.place, after.running,
        after.flow.trans before.flow⟩

/-- The scheduler has not begun its first round. -/
structure Unstarted (state : State) : Prop where
  place : state.pc = .top
  running : state.running = true
  index : state.currentFlowIndex = 0
  credit : ∀ priority flow, state.flowStates priority = some flow → flow.deficit = 0
  active : ∀ priority flow, state.flowStates priority = some flow → priority ∈ state.activeFlows

/-- The first round comes to each socket of a class that can be read from. -/
theorem Unstarted.reaches_socket {state : State} (unstarted : state.Unstarted) {priority : Priority}
    {flow : FlowState} (registered : state.flowStates priority = some flow)
    (usable : flow.quantum % wordBound ≠ 0) {earlier rest : List Socket} {socket : Socket}
    (sockets : state.socketConfigs priority = earlier ++ socket :: rest) :
    ∃ next round visit, state.Reaches next ∧ next.pc = .receive round visit (socket :: rest) false ∧
      visit.priority = priority ∧ visit.sockets = earlier ++ socket :: rest := by
  have active := unstarted.active priority flow registered
  have begun : state.runStep = some { state with pc := .flow state.snapshot } := by
    simp [runStep, unstarted.place, unstarted.running, List.ne_nil_of_mem active]
  let start : State := { state with pc := .flow state.snapshot }
  have place : start.pc = .flow state.snapshot := rfl
  have running : start.running = true := unstarted.running
  obtain ⟨middle, before⟩ := reaches_flow priority place running unstarted.index rfl (Nat.le_refl _)
  have inside : state.activeFlows.idxOf priority < state.activeFlows.length :=
    List.idxOf_lt_length_of_mem active
  have snapshot : state.snapshot.snapshotMap priority = some (earlier ++ socket :: rest) := by
    simp [State.snapshot, active, registered, sockets]
  have present : middle.flowStates priority = some flow := before.flow.trans registered
  have credit : (flow.deficit + flow.quantum) % wordBound ≠ 0 := by
    rw [unstarted.credit priority flow registered, Nat.zero_add]
    exact usable
  have following : Round.next { state.snapshot with done := state.activeFlows.idxOf priority } =
      some priority := by
    refine (if_pos inside).trans ?_
    change state.activeFlows[(state.currentFlowIndex + _) % state.activeFlows.length]? = _
    rw [unstarted.index, Nat.zero_add, Nat.mod_eq_of_lt inside, List.getElem?_eq_getElem inside,
      List.getElem_idxOf]
  have entered := runStep_enter before.place before.running following snapshot present
  have entry := enter_visits middle { state.snapshot with done := state.activeFlows.idxOf priority }
    priority (earlier ++ socket :: rest) credit
  have running' := (enter_running middle { state.snapshot with done := state.activeFlows.idxOf priority }
    priority (earlier ++ socket :: rest) flow).trans before.running
  obtain ⟨polled, looked, found⟩ := comes_to_socket entry running' credit rfl
  refine ⟨polled, _, _, ?_, found, rfl, rfl⟩
  exact (Reaches.run begun).trans (before.reached.trans ((Reaches.run entered).trans looked))

/-! ## Any socket may be read from -/

theorem Unstarted.addSocket {state : State} (unstarted : state.Unstarted)
    (registration : Registration) :
    (state.addSocket registration.socket registration.priority registration.latencyBudget
      registration.quantum).Unstarted where
  place := unstarted.place
  running := unstarted.running
  index := unstarted.index
  credit priority flow found := by
    rw [addSocket_flowStates] at found
    split at found
    · cases before : state.flowStates registration.priority with
      | none =>
          rw [before] at found
          cases found
          rfl
      | some earlier =>
          rw [before] at found
          cases found
          exact unstarted.credit _ _ before
    · exact unstarted.credit priority flow found
  active priority flow found := by
    rw [addSocket_flowStates] at found
    simp only [State.addSocket]
    by_cases here : priority = registration.priority
    · subst here
      split
      · assumption
      · simp
    · rw [if_neg here] at found
      have known := unstarted.active priority flow found
      split
      · exact known
      · exact List.mem_append_left _ known

end State

def Action.ofRegistration (registration : Registration) : Action :=
  .addSocket registration.socket registration.priority registration.latencyBudget
    registration.quantum

theorem filterMap_registration (called : List Registration) :
    (called.map Action.ofRegistration).filterMap Action.registration = called := by
  rw [List.filterMap_map]
  exact List.filterMap_some

/-- The calls of a run are those among its actions. -/
theorem registrations_run {final : State × Past State Action} {actions : List Action}
    (ran : TransitionSystem.run (recorded State.step) (State.initial, []) actions = some final) :
    registrations final.2 = actions.filterMap Action.registration :=
  observed_run ran

theorem run_registered {state : State} (unstarted : state.Unstarted) (called : List Registration) :
    ∃ next, Ingress.run state (called.map Action.ofRegistration) = some next ∧ next.Unstarted := by
  induction called generalizing state with
  | nil => exact ⟨state, rfl, unstarted⟩
  | cons registration rest ih =>
      obtain ⟨next, ran, still⟩ := ih (unstarted.addSocket registration)
      exact ⟨next, ran, still⟩

theorem initial_unstarted : State.initial.Unstarted := ⟨rfl, rfl, rfl, nofun, nofun⟩

theorem registration_of_searches {action : Action} (searches : Searches action) :
    action.registration = none := by
  cases action with
  | run | recv => rfl
  | addSocket | tick | stop => exact absurd searches id

/-- A packet may be read from any socket of a class that can be read from. -/
theorem exists_reading {called : List Registration} {priority : Priority}
    (readable : Readable called priority) {earlier later : List Registration}
    {registration : Registration}
    (place : registeredFor priority called = earlier ++ registration :: later) :
    ∃ actions final reading, actions.filterMap Action.registration = called ∧
      TransitionSystem.run (recorded State.step) (State.initial, []) actions = some final ∧
      reading ∈ observed State.readingAt final.2 ∧ reading.priority = priority ∧
      reading.place = earlier.length := by
  obtain ⟨state, ran, unstarted⟩ := run_registered initial_unstarted called
  obtain ⟨past, recording⟩ := exists_recorded ran []
  have told : registrations past = called := by
    rw [registrations_run recording, filterMap_registration]
  have budgeted : Budgeted (state, past) :=
    run_invariant step_budgeted initial_budgeted recording
  have registered : state.Registered called := told ▸ budgeted.registered
  obtain ⟨first, head, usable⟩ := readable
  obtain ⟨flow, present, quantum, _⟩ := registered.flow head
  have sockets : state.socketConfigs priority = earlier.map Registration.socket ++
      registration.socket :: later.map Registration.socket := by
    rw [registered.sockets, place, List.map_append, List.map_cons]
  obtain ⟨next, round, visit, reached, here, class_eq, visited⟩ :=
    unstarted.reaches_socket present (quantum ▸ usable) sockets
  obtain ⟨searching, only, searched⟩ := exists_run_of_steps reached
  obtain ⟨longer, recording'⟩ := exists_recorded searched past
  have read : State.step next (.recv (.datagram [0]) true) = some (next.read round visit
      (later.map Registration.socket) [0] true) := by
    simp [State.step, State.recvStep, here]
  have seen : next.readingAt (.recv (.datagram [0]) true) = some {
      priority := visit.priority
      place := visit.sockets.length - ((later.map Registration.socket).length + 1)
      socket := registration.socket
      packet := next.packet visit.priority [0] } := by
    simp only [State.readingAt, here]
  have unregistered : searching.filterMap Action.registration = [] :=
    List.filterMap_eq_nil_iff.mpr fun action member => registration_of_searches (only action member)
  have shown : observed State.readingAt (longer ++ [(next, .recv (.datagram [0]) true)]) = _ :=
    observed_some seen
  refine ⟨called.map Action.ofRegistration ++ (searching ++ [.recv (.datagram [0]) true]),
    (next.read round visit (later.map Registration.socket) [0] true,
      longer ++ [(next, .recv (.datagram [0]) true)]), ?_⟩
  refine ⟨_, ?calls, ?reached, shown ▸ List.mem_append_right _ (List.mem_singleton_self _), class_eq, ?_⟩
  case calls =>
    rw [List.filterMap_append, List.filterMap_append, unregistered, filterMap_registration]
    exact List.append_nil called
  case reached =>
    rw [run_append, recording, Option.bind_some, run_append, recording', Option.bind_some]
    exact run_cons_eq_some.mpr ⟨_, recorded_eq_some.mpr ⟨read, rfl⟩, rfl⟩
  rw [visited]
  simp

/-- The sockets of a class that can be read from have one budget. -/
def Agreeing (called : List Registration) : Prop :=
  ∀ priority, Readable called priority →
    ∀ one ∈ registeredFor priority called, ∀ other ∈ registeredFor priority called,
      one.latencyBudget = other.latencyBudget

theorem carries_of_agreeing {called later : List Registration} (agreeing : Agreeing (called ++ later))
    {reading : Reading} (budget : FirstBudget called reading) : reading.CarriesBudget called := by
  obtain ⟨first, registration, head, usable, place, socket, carried⟩ := budget
  have readable : Readable (called ++ later) reading.priority := Readable.append ⟨first, head, usable⟩ later
  have whole {other : Registration} (member : other ∈ registeredFor reading.priority called) :
      other ∈ registeredFor reading.priority (called ++ later) := by
    rw [registeredFor, List.filter_append]
    exact List.mem_append_left _ member
  refine ⟨registration, place, socket, carried.trans ?_⟩
  exact agreeing _ readable first (whole (List.mem_of_mem_head? head)) registration
    (whole (List.mem_of_getElem? place))

/-- The budget of the first socket is that of any other one if every packet carries its own. -/
theorem agrees_with_first {called : List Registration}
    (carried : ∀ actions, actions.filterMap Action.registration = called →
      Throughout (recorded State.step) State.CarriesBudgets (State.initial, []) actions)
    {priority : Priority} {first : Registration}
    (head : (registeredFor priority called).head? = some first)
    (usable : first.quantum % wordBound ≠ 0) {registration : Registration}
    (member : registration ∈ registeredFor priority called) :
    registration.latencyBudget = first.latencyBudget := by
  obtain ⟨earlier, later, place⟩ := List.append_of_mem member
  obtain ⟨actions, final, reading, calls, ran, seen, class_eq, position⟩ :=
    exists_reading ⟨first, head, usable⟩ place
  subst class_eq
  have told : registrations final.2 = called := by
    rw [registrations_run ran, calls]
  have property := throughout_iff_prefixes.mp (carried actions calls) actions (List.prefix_refl _)
    final ran
  obtain ⟨own, found, _, budget⟩ := property reading seen
  obtain ⟨earliest, _, head', _, _, _, budget'⟩ :=
    (run_invariant step_budgeted initial_budgeted ran).readings reading seen
  rw [told] at found head'
  cases head.symm.trans head'
  rw [position, place, List.getElem?_append_right (Nat.le_refl _), Nat.sub_self] at found
  cases found
  exact budget.symm.trans budget'

/-- Whatever is registered, the packets of all runs carry the budgets of their sockets
exactly if the sockets of a class that can be read from agree on it. -/
theorem budgets_carried_iff_agreeing (called : List Registration) :
    (∀ actions, actions.filterMap Action.registration = called →
      Throughout (recorded State.step) State.CarriesBudgets (State.initial, []) actions) ↔
      Agreeing called := by
  constructor
  · intro carried priority readable one member other member'
    obtain ⟨first, head, usable⟩ := readable
    exact (agrees_with_first carried head usable member).trans
      (agrees_with_first carried head usable member').symm
  · intro agreeing actions calls
    refine throughout_iff_prefixes.mpr ?_
    intro earlier isPrefix reached ran reading seen
    obtain ⟨rest, whole⟩ := isPrefix
    have told : registrations reached.2 = earlier.filterMap Action.registration :=
      registrations_run ran
    have split : called = registrations reached.2 ++ rest.filterMap Action.registration := by
      rw [← calls, ← whole, List.filterMap_append, told]
    have budgeted : Budgeted reached := run_invariant step_budgeted initial_budgeted ran
    exact carries_of_agreeing (split ▸ agreeing) (budgeted.readings reading seen)

end EdfPipeline.Ingress
