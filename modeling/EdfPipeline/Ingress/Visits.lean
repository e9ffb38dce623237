import EdfPipeline.Ingress.Scheduler

/-!
# Steps of a visit

What a step of `process_sockets` or a call of `add_socket` can do, from the
start of a round to its end.
-/

set_option autoImplicit false

namespace EdfPipeline.Ingress

def Pc.visiting : Pc → Option Visit
  | .visit _ current | .poll _ current _ _ | .receive _ current _ _ => some current
  | _ => none

def Pc.reading : Pc → Option Visit
  | .receive _ current _ _ => some current
  | _ => none

/-- The round in progress. -/
def Pc.round : Pc → Option Round
  | .flow round | .visit round _ | .poll round _ _ _ | .receive round _ _ _ => some round
  | .top | .returned => none

/-- The next flow of a round. -/
def Round.next (round : Round) : Option Priority :=
  if round.done < round.activeFlows.length then
    round.activeFlows[(round.currentIndex + round.done) % round.activeFlows.length]?
  else none

namespace State

/-- Nothing was read: an empty datagram, an empty socket or an error. -/
def Dry (outcome : RecvOutcome) : Prop := ∀ byte bytes, outcome ≠ .datagram (byte :: bytes)

instance decidableDry : ∀ outcome, Decidable (Dry outcome)
  | .datagram (byte :: bytes) => isFalse fun nothing => nothing byte bytes rfl
  | .datagram [] | .wouldBlock | .failed => isTrue (by simp [Dry])

inductive Move (state : State) : Action → State → Prop where
  | addSocket (socket : Socket) (priority : Priority) (latencyBudget : Duration) (quantum : Nat) :
      Move state (.addSocket socket priority latencyBudget quantum)
        (state.addSocket socket priority latencyBudget quantum)
  | tick (elapsed : Duration) : Move state (.tick elapsed) { state with clock := state.clock + elapsed }
  | stop : Move state .stop { state with running := false }
  | idle (place : state.pc = .top) : Move state .run state
  | quit (place : state.pc = .top) (stopped : state.running = false) :
      Move state .run { state with pc := .returned }
  | begin (place : state.pc = .top) (running : state.running = true) :
      Move state .run { state with pc := .flow state.snapshot }
  | skip {round : Round} (place : state.pc = .flow round) (running : state.running = true)
      (missing : ∀ priority ∈ round.next,
        round.snapshotMap priority = none ∨ state.flowStates priority = none)
      (more : round.done < round.activeFlows.length) : Move state .run (state.skip round)
  | enter {round : Round} {priority : Priority} {sockets : List Socket} {flow : FlowState}
      (place : state.pc = .flow round) (running : state.running = true)
      (next : round.next = some priority) (snapshot : round.snapshotMap priority = some sockets)
      (registered : state.flowStates priority = some flow) :
      Move state .run (state.enter round priority sockets flow)
  | finish {round : Round} (place : state.pc = .flow round)
      (ends : round.activeFlows.length ≤ round.done ∨ state.running = false) :
      Move state .run (state.finish round)
  | look {round : Round} {visit : Visit} (place : state.pc = .visit round visit)
      (running : state.running = true) (left : visit.localDeficit ≠ 0) :
      Move state .run { state with pc := .poll round visit visit.sockets false }
  | socket {round : Round} {visit : Visit} {rest : List Socket} {readAny : Bool}
      (place : state.pc = .poll round visit rest readAny) (filled : rest ≠ [])
      (running : state.running = true) (left : visit.localDeficit ≠ 0) :
      Move state .run { state with pc := .receive round visit rest readAny }
  | again {round : Round} {visit : Visit} {rest : List Socket}
      (place : state.pc = .poll round visit rest true) :
      Move state .run { state with pc := .visit round visit }
  | dry {round : Round} {visit : Visit} {socket : Socket} {rest : List Socket} {readAny : Bool}
      {outcome : RecvOutcome} {room : Bool}
      (place : state.pc = .receive round visit (socket :: rest) readAny) (nothing : Dry outcome) :
      Move state (.recv outcome room) { state with pc := .poll round visit rest readAny }
  | read {round : Round} {visit : Visit} {socket : Socket} {rest : List Socket} {readAny : Bool}
      {byte : UInt8} {bytes : List UInt8} {room : Bool}
      (place : state.pc = .receive round visit (socket :: rest) readAny) :
      Move state (.recv (.datagram (byte :: bytes)) room)
        (state.read round visit rest (byte :: bytes) room)
  | leave {round : Round} {visit : Visit} {rest : List Socket}
      (place : state.pc = .visit round visit ∨ state.pc = .poll round visit rest false)
      (spent : visit.localDeficit = 0 ∨ state.running = false ∨
        state.pc = .poll round visit [] false) :
      Move state .run (state.leave round visit)

/-- Where a visit ends, it is the visit in progress. -/
theorem visiting_of_leaving {pc : Pc} {round : Round} {visit : Visit} {rest : List Socket}
    (place : pc = .visit round visit ∨ pc = .poll round visit rest false) :
    pc.visiting = some visit ∧ pc.round = some round := by
  rcases place with rfl | rfl <;> exact ⟨rfl, rfl⟩

theorem polled_move {state : State} {round : Round} {visit : Visit} {rest : List Socket}
    {readAny : Bool} (place : state.pc = .poll round visit rest readAny)
    (spent : rest = [] ∨ visit.localDeficit = 0 ∨ state.running = false) :
    Move state .run (state.polled round visit readAny) := by
  cases readAny with
  | true => exact .again place
  | false =>
      refine .leave (.inr place) ?_
      rcases spent with empty | used | stopped
      · exact .inr (.inr (empty ▸ place))
      · exact .inl used
      · exact .inr (.inl stopped)

theorem runStep_move {state next : State} (stepped : state.runStep = some next) :
    Move state .run next := by
  cases place : state.pc with
  | top =>
      simp only [runStep, place] at stepped
      split at stepped
      · rename_i running
        split at stepped
        · cases stepped
          exact .idle place
        · cases stepped
          exact .begin place running
      · rename_i stopped
        cases stepped
        exact .quit place (Bool.eq_false_of_not_eq_true stopped)
  | flow round =>
      simp only [runStep, place] at stepped
      split at stepped
      · rename_i more
        have following : round.next =
            round.activeFlows[(round.currentIndex + round.done) % round.activeFlows.length]? :=
          if_pos more
        split at stepped
        · rename_i running
          split at stepped
          · rename_i none_
            cases stepped
            exact .skip place running (by simp [following, none_]) more
          · rename_i priority found
            split at stepped
            · rename_i snapshot registered
              cases stepped
              exact .enter place running (following.trans found) snapshot registered
            · rename_i missing
              cases stepped
              refine .skip place running ?_ more
              intro other here
              rw [following, found] at here
              cases here
              cases snapshot : round.snapshotMap priority with
              | none => exact .inl rfl
              | some sockets =>
                  cases registered : state.flowStates priority with
                  | none => exact .inr rfl
                  | some flow => exact absurd registered (missing sockets flow snapshot)
        · rename_i stopped
          cases stepped
          exact .finish place (.inr (Bool.eq_false_of_not_eq_true stopped))
      · rename_i ended
        cases stepped
        exact .finish place (.inl (Nat.le_of_not_lt ended))
  | visit round visit =>
      simp only [runStep, place] at stepped
      split at stepped
      · rename_i spent
        cases stepped
        refine @Move.leave state round visit [] (.inl place) ?_
        rcases spent with stopped | used
        · exact .inr (.inl (Bool.eq_false_of_not_eq_true stopped))
        · exact .inl used
      · rename_i left
        cases stepped
        obtain ⟨running, left⟩ := not_or.mp left
        exact .look place (not_not.mp running) left
  | poll round visit rest readAny =>
      simp only [runStep, place] at stepped
      split at stepped
      · cases stepped
        exact polled_move place (.inl rfl)
      · split at stepped
        · rename_i spent
          cases stepped
          refine polled_move place (.inr ?_)
          exact spent.imp_right Bool.eq_false_of_not_eq_true
        · rename_i left
          cases stepped
          obtain ⟨left, running⟩ := not_or.mp left
          exact .socket place (List.cons_ne_nil _ _) (not_not.mp running) left
  | receive round visit rest readAny | returned => simp [runStep, place] at stepped

theorem step_move {state next : State} {action : Action} (stepped : state.step action = some next) :
    Move state action next := by
  cases action with
  | addSocket socket priority latencyBudget quantum =>
      cases stepped
      exact .addSocket socket priority latencyBudget quantum
  | tick elapsed =>
      cases stepped
      exact .tick elapsed
  | stop =>
      cases stepped
      exact .stop
  | run => exact runStep_move stepped
  | recv outcome room =>
      simp only [step, recvStep] at stepped
      split at stepped
      · rename_i place
        split at stepped
        · cases stepped
          exact .read place
        all_goals
          cases stepped
          exact .dry place (by simp [Dry])
      · cases stepped

end State

end EdfPipeline.Ingress
