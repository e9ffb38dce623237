import EdfPipeline.Ingress.Coverage
import EdfPipeline.Ingress.Credit
import EdfPipeline.Outputs

/-!
# Rounds

A visit adds the quantum of its flow to the credit and every datagram read takes
one off, so credit and datagrams together are the quantum times the number of
visits.
-/

set_option autoImplicit false

namespace EdfPipeline.Ingress

open TransitionSystem

namespace State

def stored (state : State) (priority : Priority) : Nat :=
  ((state.flowStates priority).map FlowState.deficit).getD 0

def quantum (state : State) (priority : Priority) : Nat :=
  ((state.flowStates priority).map FlowState.quantum).getD 0

/-- The credit a flow has left, which during its visit is the local copy. -/
def credit (state : State) (priority : Priority) : Nat :=
  match state.pc.visiting with
  | some visit => if visit.priority = priority then visit.localDeficit else state.stored priority
  | none => state.stored priority

/-- The number of times a flow has been visited. -/
def visits (past : Past State Action) (priority : Priority) : Nat :=
  (observed visited past).count priority

theorem credit_away {state : State} (away : state.pc.visiting = none) (priority : Priority) :
    state.credit priority = state.stored priority := by
  rw [credit, away]

theorem credit_visiting {state : State} {visit : Visit} (here : state.pc.visiting = some visit)
    (priority : Priority) : state.credit priority =
      if visit.priority = priority then visit.localDeficit else state.stored priority := by
  rw [credit, here]

theorem credit_same {state next : State} (visiting : next.pc.visiting = state.pc.visiting)
    (flows : next.flowStates = state.flowStates) : next.credit = state.credit := by
  funext priority
  rw [credit, credit, visiting, stored, stored, flows]

theorem stored_setDeficit {state : State} {priority : Priority}
    (registered : (state.flowStates priority).isSome) (deficit : Nat) (other : Priority) :
    (state.setDeficit priority deficit).stored other =
      if priority = other then deficit else state.stored other := by
  obtain ⟨flow, found⟩ := Option.isSome_iff_exists.mp registered
  by_cases same : priority = other
  · subst same
    simp [stored, setDeficit_flowStates found]
  · simp [stored, setDeficit_flowStates found, same, PriorityTable.set_other (Ne.symm same)]

@[simp] theorem quantum_setDeficit (state : State) (priority : Priority) (deficit : Nat) :
    (state.setDeficit priority deficit).quantum = state.quantum := by
  funext other
  by_cases same : other = priority
  · subst same
    cases found : state.flowStates other <;> simp [quantum, setDeficit, found]
  · simp [quantum, setDeficit, same]

/-- Credit and datagrams read add up to the quantum for each visit. -/
structure Balanced (history : State × Past State Action) : Prop where
  credited : history.1.Credited
  balance : ∀ priority, history.1.credit priority + (history.1.queues priority).handed.length =
    history.1.quantum priority * visits history.2 priority
  fresh : ∀ priority, history.1.flowStates priority = none → visits history.2 priority = 0

theorem initial_balanced : Balanced (initial, []) where
  credited := initial_credited
  balance _ := rfl
  fresh _ _ := rfl

theorem visits_quiet {past : Past State Action} {state : State} {action : Action}
    (quiet : state.visited action = none) : visits (past ++ [(state, action)]) = visits past := by
  funext priority
  rw [visits, observed_none quiet]
  rfl

theorem Balanced.quiet {state next : State} {past : Past State Action} {action : Action}
    (balanced : Balanced (state, past)) (credited : next.Credited)
    (quiet : state.visited action = none) (credit : next.credit = state.credit)
    (queues : next.queues = state.queues) (quantum : next.quantum = state.quantum)
    (flows : ∀ priority, next.flowStates priority = none → state.flowStates priority = none) :
    Balanced (next, past ++ [(state, action)]) where
  credited := credited
  balance := by
    simp only [credit, queues, quantum, visits_quiet quiet]
    exact balanced.balance
  fresh := by
    simp only [visits_quiet quiet]
    intro priority none_
    exact balanced.fresh priority (flows priority none_)

theorem addSocket_flowStates (state : State) (socket : Socket) (priority : Priority)
    (latencyBudget : Duration) (quantum : Nat) (other : Priority) :
    (state.addSocket socket priority latencyBudget quantum).flowStates other =
      if other = priority then
        some ((state.flowStates priority).getD { quantum, deficit := 0, latencyBudget })
      else state.flowStates other :=
  PriorityTable.set_apply _ _ _ _

theorem stored_addSocket (state : State) (socket : Socket) (priority : Priority)
    (latencyBudget : Duration) (quantum : Nat) :
    (state.addSocket socket priority latencyBudget quantum).stored = state.stored := by
  funext other
  rw [stored, stored, addSocket_flowStates]
  split
  · rename_i here
    subst here
    cases registered : state.flowStates other <;> simp
  · rfl

/-- A flow is registered with no credit, and has never been visited before. -/
theorem addSocket_balanced {state : State} {past : Past State Action}
    (balanced : Balanced (state, past)) (socket : Socket) (priority : Priority)
    (latencyBudget : Duration) (quantum : Nat) :
    Balanced (state.addSocket socket priority latencyBudget quantum,
      past ++ [(state, .addSocket socket priority latencyBudget quantum)]) := by
  have flows := addSocket_flowStates state socket priority latencyBudget quantum
  cases registered : state.flowStates priority with
  | some flow =>
      have same : (state.addSocket socket priority latencyBudget quantum).flowStates =
          state.flowStates := by
        funext other
        rw [flows, registered]
        split
        · rename_i here
          rw [here, registered]
          rfl
        · rfl
      exact balanced.quiet (addSocket_credited balanced.credited socket priority latencyBudget quantum)
        rfl (credit_same rfl same) rfl (by funext other; rw [State.quantum, State.quantum, same])
        (fun other none_ => same ▸ none_)
  | none =>
      let next := state.addSocket socket priority latencyBudget quantum
      have credit_eq : next.credit = state.credit := by
        funext other
        rw [credit, credit, stored_addSocket]
        rfl
      have visits_eq : visits (past ++ [(state, .addSocket socket priority latencyBudget quantum)]) =
          visits past := visits_quiet rfl
      refine ⟨addSocket_credited balanced.credited socket priority latencyBudget quantum,
        fun other => ?_, fun other none_ => ?_⟩
      · have before := balanced.balance other
        rw [← credit_eq] at before
        rw [visits_eq]
        refine before.trans ?_
        by_cases here : other = priority
        · subst here
          rw [balanced.fresh other registered, Nat.mul_zero, Nat.mul_zero]
        · simp only [State.quantum, flows, if_neg here]
      · rw [visits_eq]
        refine balanced.fresh other ?_
        simp only [flows] at none_
        split at none_
        · cases none_
        · exact none_

/-- The quantum is added to the credit, and the visit is counted. -/
theorem enter_balanced {state : State} {past : Past State Action}
    (balanced : Balanced (state, past)) {round : Round} {priority : Priority}
    {sockets : List Socket} {flow : FlowState} (away : state.pc.visiting = none)
    (registered : state.flowStates priority = some flow)
    (visits_one : state.visited .run = some priority)
    (fits : flow.deficit + flow.quantum < wordBound)
    (credited : (state.enter round priority sockets flow).Credited) :
    Balanced (state.enter round priority sockets flow, past ++ [(state, .run)]) := by
  have unwrapped : (flow.deficit + flow.quantum) % wordBound = flow.deficit + flow.quantum :=
    Nat.mod_eq_of_lt fits
  have counted (other : Priority) : visits (past ++ [(state, .run)]) other =
      visits past other + if priority = other then 1 else 0 := by
    rw [visits, observed_some visits_one, List.count_append, List.count_singleton]
    simp [visits]
  have added (other : Priority) : (state.enter round priority sockets flow).credit other =
      if priority = other then flow.deficit + flow.quantum else state.stored other := by
    have settled := stored_setDeficit (Option.isSome_iff_exists.mpr ⟨flow, registered⟩)
      (flow.deficit + flow.quantum) other
    simp only [enter, unwrapped]
    split
    · exact (credit_away rfl other).trans settled
    · refine (credit_visiting rfl other).trans ?_
      split
      · rfl
      · rename_i different
        exact settled.trans (if_neg different)
  have quantum_eq : (state.enter round priority sockets flow).quantum = state.quantum := by
    simp only [enter]
    split <;> exact quantum_setDeficit _ _ _
  have queues_eq : (state.enter round priority sockets flow).queues = state.queues := by
    simp only [enter]
    split <;> rfl
  refine ⟨credited, ?_, ?_⟩
  · intro other
    have before := balanced.balance other
    simp only [credit_away away] at before
    simp only [added, quantum_eq, queues_eq, counted, Nat.mul_add]
    split
    · rename_i here
      subst here
      have deficit : state.stored priority = flow.deficit := by simp [stored, registered]
      have quantum : state.quantum priority = flow.quantum := by simp [State.quantum, registered]
      rw [deficit, quantum] at before
      rw [quantum]
      omega
    · exact before
  · intro other none_
    have unknown : state.flowStates other = none := by
      simp only [enter] at none_
      split at none_ <;> exact setDeficit_eq_none none_
    have different : priority ≠ other := by
      rintro rfl
      cases registered.symm.trans unknown
    rw [counted, balanced.fresh other unknown, if_neg different]

/-- A datagram takes one off the credit. -/
theorem read_balanced {state : State} {past : Past State Action} {round : Round} {visit : Visit}
    {socket : Socket} {rest : List Socket} {readAny : Bool} {outcome : RecvOutcome}
    {payload : List UInt8} {room : Bool} (balanced : Balanced (state, past))
    (place : state.pc = .receive round visit (socket :: rest) readAny)
    (credited : (state.read round visit rest payload room).Credited) :
    Balanced (state.read round visit rest payload room, past ++ [(state, .recv outcome room)]) := by
  have visits_eq : visits (past ++ [(state, .recv outcome room)]) = visits past := visits_quiet rfl
  have here : state.pc.visiting = some visit := by rw [place]; rfl
  have now : (state.read round visit rest payload room).pc.visiting =
      some { visit with localDeficit := visit.localDeficit - 1 } := by
    cases room <;> rfl
  have left := balanced.credited.left visit (place ▸ rfl)
  refine ⟨credited, ?_, ?_⟩
  · intro other
    have before := balanced.balance other
    rw [credit_visiting here] at before
    rw [credit_visiting now, visits_eq]
    simp only [State.read, handed_set_trySend]
    by_cases mine : visit.priority = other
    · simp only [mine, ↓reduceIte, ofClass, Option.toList_some, List.length_append,
        List.length_singleton] at before ⊢
      refine Eq.trans ?_ before
      omega
    · simp only [mine, ↓reduceIte, ofClass, Option.toList_none, List.append_nil] at before ⊢
      exact before
  · intro other none_
    rw [visits_eq]
    exact balanced.fresh other none_

/-- What is left of the credit is stored. -/
theorem leave_balanced {state : State} {past : Past State Action} {round : Round} {visit : Visit}
    (balanced : Balanced (state, past)) (here : state.pc.visiting = some visit)
    (quiet : state.visited .run = none) (credited : (state.leave round visit).Credited) :
    Balanced (state.leave round visit, past ++ [(state, .run)]) := by
  have registered := balanced.credited.present visit here
  refine balanced.quiet credited quiet ?_ rfl (quantum_setDeficit _ _ _) fun _ none_ =>
    setDeficit_eq_none none_
  funext other
  rw [credit_away rfl, credit_visiting here]
  exact stored_setDeficit registered visit.localDeficit other

theorem step_balanced {history next : State × Past State Action} {action : Action}
    (covering : history.1.Covering (lastRound history.2)) (balanced : Balanced history)
    (regular : Regular history action) (stepped : recorded step history action = some next) :
    Balanced next := by
  obtain ⟨state, past⟩ := history
  obtain ⟨after, later⟩ := next
  obtain ⟨moved, same⟩ := recorded_eq_some.mp stepped
  simp only at moved same covering
  subst same
  have credited := step_credited balanced.credited moved
  cases step_move moved with
  | addSocket socket priority latencyBudget quantum =>
      exact addSocket_balanced balanced socket priority latencyBudget quantum
  | tick | stop =>
      exact balanced.quiet credited rfl (credit_same rfl rfl) rfl rfl fun _ none_ => none_
  | idle place =>
      exact balanced.quiet credited (by simp [visited, place]) rfl rfl rfl fun _ none_ => none_
  | quit place | begin place | look place | socket place | again place =>
      exact balanced.quiet credited (by simp [visited, place]) (credit_same (by rw [place]; rfl) rfl)
        rfl rfl fun _ none_ => none_
  | finish place ends =>
      have quiet : state.visited .run = none := by
        rcases ends with full | stopped
        · simp [visited, place, Round.next, Nat.not_lt.mpr full]
        · simp [visited, place, stopped]
      exact balanced.quiet credited quiet (credit_same (by rw [place]; rfl) rfl) rfl rfl
        fun _ none_ => none_
  | skip place running missing more =>
      exact (covering.nothing_missing (place ▸ rfl) missing more).elim
  | enter place running next snapshot registered =>
      have visits_one := covering.visits place next
      exact enter_balanced balanced (place ▸ rfl) registered visits_one
        (regular _ visits_one _ registered) credited
  | dry place nothing =>
      exact balanced.quiet credited rfl (credit_same (by rw [place]; rfl) rfl) rfl rfl
        fun _ none_ => none_
  | read place =>
      rename_i round visit socket rest readAny byte bytes room
      exact read_balanced balanced place credited
  | leave place spent =>
      exact leave_balanced balanced (visiting_of_leaving place).1 (visited_leaving place) credited

/-! ## Flows that never run dry -/

/-- In the visits of this flow every read finds a datagram. -/
def NeverDry (priority : Priority) (history : State × Past State Action) : Action → Prop
  | .recv outcome _ => ∀ visit ∈ history.1.pc.visiting, visit.priority = priority → ¬ Dry outcome
  | _ => True

instance decidableNeverDry (priority : Priority) (history : State × Past State Action) :
    ∀ action, Decidable (NeverDry priority history action)
  | .recv outcome _ => inferInstanceAs (Decidable (∀ visit ∈ history.1.pc.visiting,
      visit.priority = priority → ¬ Dry outcome))
  | .addSocket _ _ _ _ | .tick _ | .stop | .run => isTrue trivial

end State

/-- While nothing has been read, all sockets are still to be read. -/
def Pc.Unread (priority : Priority) : Pc → Prop
  | .poll _ current rest false | .receive _ current rest false =>
      current.priority = priority → rest = current.sockets
  | _ => True

namespace State

/-- Away from its visits the flow has no credit left. -/
structure Spending (priority : Priority) (state : State) : Prop where
  spent : (∀ visit ∈ state.pc.visiting, visit.priority ≠ priority) → state.stored priority = 0
  unread : state.pc.Unread priority

theorem initial_spending (priority : Priority) : initial.Spending priority where
  spent _ := rfl
  unread := trivial

theorem step_spending {priority : Priority} {state next : State} {past : Past State Action}
    {progress : List Priority × List Priority} {action : Action} (spending : state.Spending priority)
    (covering : state.Covering progress) (credited : state.Credited)
    (flowing : NeverDry priority (state, past) action)
    (stepped : state.step action = some next) : next.Spending priority := by
  cases step_move stepped with
  | addSocket socket other latencyBudget quantum =>
      refine ⟨?_, spending.unread⟩
      intro away
      rw [stored_addSocket]
      exact spending.spent away
  | tick | stop => exact ⟨spending.spent, spending.unread⟩
  | idle place => exact spending
  | quit place | begin place => exact ⟨fun _ => spending.spent (by simp [place, Pc.visiting]), trivial⟩
  | finish place ends => exact ⟨fun _ => spending.spent (by simp [place, Pc.visiting]), trivial⟩
  | skip place running missing more =>
      exact (covering.nothing_missing (place ▸ rfl) missing more).elim
  | enter place running next snapshot registered =>
      rename_i round other sockets flow
      have before := spending.spent (by simp [place, Pc.visiting])
      have settled := stored_setDeficit (Option.isSome_iff_exists.mpr ⟨flow, registered⟩)
        ((flow.deficit + flow.quantum) % wordBound) priority
      simp only [enter]
      split
      · rename_i none_
        refine ⟨fun _ => settled.trans ?_, trivial⟩
        rw [none_, before]
        exact ite_self 0
      · refine ⟨fun away => settled.trans ?_, trivial⟩
        rw [if_neg (away _ rfl), before]
  | look place running left =>
      refine ⟨fun away => spending.spent ?_, fun _ => rfl⟩
      rwa [place]
  | socket place filled running left =>
      rename_i round visit rest readAny
      have unread := spending.unread
      rw [place] at unread
      refine ⟨fun away => spending.spent ?_, ?_⟩
      · rwa [place]
      · cases readAny with
        | true => trivial
        | false => exact unread
  | again place =>
      refine ⟨fun away => spending.spent ?_, trivial⟩
      rwa [place]
  | dry place nothing =>
      rename_i round visit socket rest readAny outcome room
      refine ⟨fun away => spending.spent ?_, ?_⟩
      · rwa [place]
      · cases readAny with
        | true => trivial
        | false => exact fun mine => absurd nothing (flowing visit (place ▸ rfl) mine)
  | read place =>
      rename_i round visit socket rest readAny byte bytes room
      cases room with
      | true | false =>
          refine ⟨fun away => spending.spent fun current here => ?_, trivial⟩
          rw [place] at here
          cases here
          exact away { visit with localDeficit := visit.localDeficit - 1 } rfl
  | @leave round visit rest place spent =>
      obtain ⟨here, inRound⟩ := visiting_of_leaving place
      refine ⟨?_, trivial⟩
      intro _
      refine (stored_setDeficit (credited.present visit here) visit.localDeficit priority).trans ?_
      split
      · rename_i mine
        rcases spent with used | stopped | empty
        · exact used
        · exact absurd (stopped.symm.trans (covering.running round inRound)) Bool.false_ne_true
        · -- all its sockets are still to be read, so it has none
          have unread := spending.unread
          rw [empty] at unread
          exact absurd (unread mine).symm (covering.visiting visit here)
      · rename_i other
        refine spending.spent ?_
        intro current there
        cases here.symm.trans there
        exact other

/-! ## Whole runs -/

/-- What holds in every state: credit left and datagrams read add up to the
quantum for each visit, and a round that ends has visited each flow that was
active when it began once, and no other. -/
structure Accounted (history : State × Past State Action) : Prop where
  balance : ∀ priority flow, history.1.flowStates priority = some flow →
    (∀ visit ∈ history.1.pc.visiting, visit.priority ≠ priority) →
      flow.deficit + (history.1.queues priority).handed.length =
        flow.quantum * visits history.2 priority
  covered : ∀ round next, history.1.pc = .flow round → history.1.step .run = some next →
    next.pc = .top → ∀ priority, (lastRound history.2).2.count priority =
      if priority ∈ (lastRound history.2).1 then 1 else 0

/-- Away from its visits the flow has read all that its visits gave it credit for. -/
def Exhausted (priority : Priority) (history : State × Past State Action) : Prop :=
  ∀ flow, history.1.flowStates priority = some flow →
    (∀ visit ∈ history.1.pc.visiting, visit.priority ≠ priority) →
      flow.deficit = 0 ∧ (history.1.queues priority).handed.length =
        flow.quantum * visits history.2 priority

structure Kept (history : State × Past State Action) : Prop where
  covering : history.1.Covering (lastRound history.2)
  balanced : Balanced history

theorem initial_kept : Kept (initial, []) := ⟨initial_covering, initial_balanced⟩

theorem step_kept {history next : State × Past State Action} {action : Action} (kept : Kept history)
    (regular : Regular history action) (stepped : recorded step history action = some next) :
    Kept next :=
  ⟨step_covering kept.covering regular stepped,
    step_balanced kept.covering kept.balanced regular stepped⟩

theorem credit_idle {state : State} {priority : Priority}
    (away : ∀ visit ∈ state.pc.visiting, visit.priority ≠ priority) :
    state.credit priority = state.stored priority := by
  cases here : state.pc.visiting with
  | none => exact credit_away here priority
  | some visit => rw [credit_visiting here, if_neg (away visit here)]

theorem Kept.accounted {history : State × Past State Action} (kept : Kept history) :
    Accounted history where
  balance priority flow registered away := by
    have balance := kept.balanced.balance priority
    rw [credit_idle away] at balance
    simpa [stored, State.quantum, registered] using balance
  covered round next place stepped ends priority := by
    have inRound : history.1.pc.round = some round := place ▸ rfl
    rw [kept.covering.whole place stepped ends, Round.order,
      (List.rotate_perm _ _).count_eq]
    exact (kept.covering.distinct round inRound).count

theorem exhausted_of_spending {priority : Priority} {history : State × Past State Action}
    (steady : Kept history ∧ history.1.Spending priority) : Exhausted priority history := by
  obtain ⟨kept, spending⟩ := steady
  intro flow registered away
  have balance := kept.accounted.balance priority flow registered away
  have spent := spending.spent away
  simp only [stored, registered, Option.map_some, Option.getD_some] at spent
  rw [spent, Nat.zero_add] at balance
  exact ⟨spent, balance⟩

theorem step_steady {priority : Priority} {history next : State × Past State Action}
    {action : Action} (steady : Kept history ∧ history.1.Spending priority)
    (guarded : Regular history action ∧ NeverDry priority history action)
    (stepped : recorded step history action = some next) :
    Kept next ∧ next.1.Spending priority := by
  obtain ⟨kept, spending⟩ := steady
  obtain ⟨regular, flowing⟩ := guarded
  refine ⟨step_kept kept regular stepped, ?_⟩
  exact step_spending spending kept.covering kept.balanced.credited flowing
    (recorded_eq_some.mp stepped).1

end State

/-- In every run whose rounds are not shut down and whose counters do not wrap,
rounds cover their flows and credit is accounted for. Flows that never run dry
leave no credit. -/
theorem accounted_throughout (actions : List Action)
    (regular : Along (recorded State.step) State.Regular (State.initial, []) actions) :
    Throughout (recorded State.step) State.Accounted (State.initial, []) actions ∧
      ∀ priority, Along (recorded State.step) (State.NeverDry priority) (State.initial, []) actions →
        Throughout (recorded State.step) (State.Exhausted priority) (State.initial, []) actions := by
  refine ⟨throughout_guarded State.step_kept State.Kept.accounted State.initial_kept regular, ?_⟩
  intro priority flowing
  have start : State.Kept (State.initial, []) ∧ State.initial.Spending priority :=
    ⟨State.initial_kept, State.initial_spending priority⟩
  exact throughout_guarded State.step_steady State.exhausted_of_spending start
    (regular.and flowing)

/-! ## Two rounds -/

def visitBoth : List Action :=
  [.run, .run, .run, .recv (.datagram [1]) true, .run, .recv (.datagram [2]) false, .run]

def visitDry : List Action := [.run, .run, .run, .recv .wouldBlock true, .run]

def twoRounds : List Action :=
  [.addSocket 0 .high (Duration.fromMillis 1) 2, .addSocket 1 .high (Duration.fromMillis 1) 2,
    .addSocket 2 .low (Duration.fromMillis 100) 2, .run] ++ visitBoth ++ visitDry ++
    [.run, .run] ++ visitDry ++ visitBoth ++ [.run]

/-- The flow with two sockets is drained in both rounds, the other one is dry. -/
theorem accounted_twoRounds :
    (run State.initial twoRounds).isSome ∧
      Throughout (recorded State.step) State.Accounted (State.initial, []) twoRounds ∧
        Throughout (recorded State.step) (State.Exhausted .high) (State.initial, []) twoRounds := by
  obtain ⟨accounted, exhausted⟩ := accounted_throughout twoRounds (by decide +kernel)
  exact ⟨by decide +kernel, accounted, exhausted .high (by decide +kernel)⟩

end EdfPipeline.Ingress
