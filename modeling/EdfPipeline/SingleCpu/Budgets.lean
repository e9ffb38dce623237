import EdfPipeline.SingleCpu.Moves
import EdfPipeline.Registration

/-!
# Latency budgets in the single-CPU scheduler

Each socket keeps its own budget, and a packet carries that of the socket it was
read from. Nothing is registered while a class is being read, so the sockets to
come are the last ones of the class.
-/

set_option autoImplicit false

namespace EdfPipeline.SingleCpu

open TransitionSystem

def Action.registration : Action → Option Registration
  | .addSocket socket priority latencyBudget =>
      some { socket, priority, latencyBudget, quantum := 0 }
  | _ => none

/-- The calls of `add_socket` so far. -/
def registrations (past : Past State Action) : List Registration :=
  observed (fun _ => Action.registration) past

/-- What `add_socket` keeps of a call. -/
def configOf (registration : Registration) : SocketConfig where
  socket := registration.socket
  latencyBudget := registration.latencyBudget

namespace State

def readingAt (state : State) : Action → Option Reading
  | .recv _ (.datagram (byte :: bytes)) =>
      match state.call with
      | .receive priority config sockets _ =>
          some {
            priority
            place := (state.socketConfigs priority).length - (sockets.length + 1)
            socket := config.socket
            packet := state.packet priority config (byte :: bytes) }
      | _ => none
  | _ => none

def CarriesBudgets (history : State × Past State Action) : Prop :=
  ∀ reading ∈ observed readingAt history.2, reading.CarriesBudget (registrations history.2)

end State

/-- The sockets to come are the last ones of their class. -/
def Call.Reads (configs : PriorityTable (List SocketConfig)) : Call → Prop
  | .next priority sockets _ => sockets <:+ configs priority
  | .receive priority config sockets _ => config :: sockets <:+ configs priority
  | _ => True

structure Budgeted (history : State × Past State Action) : Prop where
  configs : ∀ priority, history.1.socketConfigs priority =
    (registeredFor priority (registrations history.2)).map configOf
  reads : history.1.call.Reads history.1.socketConfigs
  carried : State.CarriesBudgets history

theorem initial_budgeted : Budgeted (State.initial, []) where
  configs _ := rfl
  reads := trivial
  carried := nofun

/-- Steps that register nothing and read nothing. -/
theorem Budgeted.quiet {state next : State} {past : Past State Action} {action : Action}
    (budgeted : Budgeted (state, past)) (silent : action.registration = none)
    (dry : state.readingAt action = none) (same : next.socketConfigs = state.socketConfigs)
    (reads : next.call.Reads state.socketConfigs) : Budgeted (next, past ++ [(state, action)]) := by
  have told : registrations (past ++ [(state, action)]) = registrations past := observed_none silent
  refine ⟨?_, ?_, ?_⟩
  · intro priority
    rw [told, same]
    exact budgeted.configs priority
  · rw [same]
    exact reads
  · intro reading member
    rw [told]
    rw [observed_none dry] at member
    exact budgeted.carried reading member

namespace State

/-- Only `add_socket` changes the sockets of a class, and a call reads them in order. -/
theorem Moves.reads {state next : State} {action : Action} (move : Moves state action next)
    (silent : action.registration = none) (reads : state.call.Reads state.socketConfigs) :
    next.socketConfigs = state.socketConfigs ∧ next.call.Reads state.socketConfigs := by
  cases move with
  | addSocket unlocked => cases silent
  | tick | spin => exact ⟨rfl, reads⟩
  | refill place empty => exact ⟨rfl, List.suffix_refl _⟩
  | next place running =>
      rw [place] at reads
      exact ⟨rfl, reads⟩
  | dry place | read place =>
      rw [place] at reads
      exact ⟨rfl, (List.suffix_cons _ _).trans reads⟩
  | processNext | refilled | filled | leave | idle | take | done | forward => exact ⟨rfl, trivial⟩

/-- The socket a packet is read from is the one at its place. -/
theorem readingAt_carries {state : State} {registrations : List Registration} {action : Action}
    {reading : Reading}
    (configs : ∀ priority, state.socketConfigs priority =
      (registeredFor priority registrations).map configOf)
    (reads : state.call.Reads state.socketConfigs)
    (seen : state.readingAt action = some reading) : reading.CarriesBudget registrations := by
  unfold readingAt at seen
  split at seen
  · split at seen
    · rename_i priority config sockets rest place
      cases seen
      rw [place] at reads
      have found := getElem?_of_suffix reads
      rw [configs, List.getElem?_map, ← configs] at found
      obtain ⟨registration, registered, same⟩ := Option.map_eq_some_iff.mp found
      exact ⟨registration, registered, congrArg SocketConfig.socket same,
        (congrArg SocketConfig.latencyBudget same).symm⟩
    · cases seen
  · cases seen

theorem addSocket_configs {configs : PriorityTable (List SocketConfig)}
    {registrations : List Registration}
    (known : ∀ priority, configs priority = (registeredFor priority registrations).map configOf)
    (registration : Registration) (priority : Priority) :
    configs.set registration.priority (configs registration.priority ++ [configOf registration]) priority =
      (registeredFor priority (registrations ++ [registration])).map configOf := by
  rw [registeredFor_concat, List.map_append, ← known]
  by_cases here : priority = registration.priority
  · rw [here, PriorityTable.set_self, if_pos rfl]
    rfl
  · rw [PriorityTable.set_other here, if_neg (Ne.symm here), List.map_nil, List.append_nil]

end State

open State in
theorem step_budgeted {history next : State × Past State Action} {action : Action}
    (budgeted : Budgeted history) (stepped : recorded State.step history action = some next) :
    Budgeted next := by
  obtain ⟨state, past⟩ := history
  obtain ⟨after, later⟩ := next
  obtain ⟨moved, rfl⟩ := recorded_eq_some.mp stepped
  have reads : state.call.Reads state.socketConfigs := budgeted.reads
  have move : Moves state action after := step_moves moved
  have quiet (silent : action.registration = none) (dry : state.readingAt action = none) :
      Budgeted (after, past ++ [(state, action)]) := by
    obtain ⟨same, remaining⟩ := move.reads silent reads
    exact budgeted.quiet silent dry same remaining
  cases action with
  | addSocket socket priority latencyBudget =>
      have told : registrations (past ++ [(state, .addSocket socket priority latencyBudget)]) =
          registrations past ++ [.mk socket priority latencyBudget 0] := observed_some rfl
      cases move with
      | addSocket unlocked =>
          refine ⟨?_, ?_, ?_⟩
          · rw [told]
            exact addSocket_configs budgeted.configs (.mk socket priority latencyBudget 0)
          · cases place : state.call with
            | next | receive => simp [place, Call.holdsConfigs] at unlocked
            | idle | refill | select | busy | send => trivial
          · intro reading member
            rw [observed_none rfl] at member
            rw [told]
            exact (budgeted.carried reading member).append _
  | recv available outcome =>
      obtain ⟨same, remaining⟩ := move.reads rfl reads
      have told : registrations (past ++ [(state, .recv available outcome)]) = registrations past :=
        observed_none rfl
      refine ⟨?_, same ▸ remaining, ?_⟩
      · intro priority
        rw [told, same]
        exact budgeted.configs priority
      · intro reading member
        rw [told]
        exact forall_observed budgeted.carried
          (fun seen now => readingAt_carries budgeted.configs reads now) reading member
  | tick | processNext | run | send => exact quiet rfl rfl

/-- In every run, every packet carries the budget its socket was registered with. -/
theorem own_budget_throughout (actions : List Action) :
    Throughout (recorded State.step) State.CarriesBudgets (State.initial, []) actions :=
  throughout_invariant step_budgeted Budgeted.carried initial_budgeted actions

theorem registrations_run {final : State × Past State Action} {actions : List Action}
    (ran : TransitionSystem.run (recorded State.step) (State.initial, []) actions = some final) :
    registrations final.2 = actions.filterMap Action.registration :=
  observed_run ran

end EdfPipeline.SingleCpu
