import EdfPipeline.Ingress.Visits

/-!
# Carried credit

A visit that leaves credit stores all of it, and the next visit adds a full
quantum again. The deficit is bounded by the quantum times the number of visits
since the last one that used its credit up, and by nothing less.
-/

set_option autoImplicit false

namespace EdfPipeline.Ingress

namespace State

structure CreditBounded (state : State) : Prop where
  stored : ∀ priority flow, state.flowStates priority = some flow →
    (∀ visit ∈ state.pc.visiting, visit.priority ≠ priority) →
      flow.deficit ≤ flow.quantum * state.carried priority
  visited : ∀ visit ∈ state.pc.visiting, ∀ flow,
    state.flowStates visit.priority = some flow →
      state.consumed + visit.localDeficit ≤ flow.quantum * (state.carried visit.priority + 1)

/-- The flow being visited is registered, and it reads only with credit left. -/
structure Credited (state : State) : Prop extends CreditBounded state where
  present : ∀ visit ∈ state.pc.visiting, (state.flowStates visit.priority).isSome
  left : ∀ visit ∈ state.pc.reading, visit.localDeficit ≠ 0

theorem initial_credited : State.initial.Credited where
  stored := by simp [State.initial]
  visited := by simp [State.initial, Pc.visiting]
  present := by simp [State.initial, Pc.visiting]
  left := by simp [State.initial, Pc.reading]

theorem Credited.goto {state next : State} (credited : state.Credited)
    (flows : next.flowStates = state.flowStates) (carried : next.carried = state.carried)
    (consumed : next.consumed = state.consumed) (visiting : next.pc.visiting = state.pc.visiting)
    (left : ∀ visit ∈ next.pc.reading, visit.localDeficit ≠ 0) : next.Credited where
  stored := by
    rw [flows, carried, visiting]
    exact credited.stored
  visited := by
    rw [flows, carried, consumed, visiting]
    exact credited.visited
  present := by
    rw [flows, visiting]
    exact credited.present
  left := left

theorem addSocket_credited {state : State} (credited : state.Credited) (socket : Socket)
    (priority : Priority) (latencyBudget : Duration) (quantum : Nat) :
    (state.addSocket socket priority latencyBudget quantum).Credited where
  stored := by
    intro other flow found away
    simp only [addSocket, PriorityTable.set_apply] at found
    split at found
    · rename_i same
      subst same
      cases registered : state.flowStates other with
      | none =>
          rw [registered] at found
          cases found
          exact Nat.zero_le _
      | some old =>
          rw [registered] at found
          cases found
          exact credited.stored other old registered away
    · exact credited.stored other flow found away
  visited := by
    intro visit here flow found
    obtain ⟨old, registered⟩ := Option.isSome_iff_exists.mp (credited.present visit here)
    simp only [addSocket, PriorityTable.set_apply] at found
    split at found
    · rename_i same
      rw [← same, registered] at found
      cases found
      exact credited.visited visit here old registered
    · exact credited.visited visit here flow found
  present := by
    intro visit here
    simp only [addSocket, PriorityTable.set_apply]
    split
    · rfl
    · exact credited.present visit here
  left := credited.left

@[simp] theorem setDeficit_flowStates {state : State} {priority : Priority} {flow : FlowState}
    (registered : state.flowStates priority = some flow) (deficit : Nat) :
    (state.setDeficit priority deficit).flowStates =
      state.flowStates.set priority (some { flow with deficit }) := by
  simp [setDeficit, registered]

/-- The flow is left with this much credit, and no flow is being visited. -/
theorem Credited.settle {state next : State} (credited : state.Credited) {priority : Priority}
    {flow : FlowState} (deficit : Nat)
    (flows : next.flowStates = state.flowStates.set priority (some { flow with deficit }))
    (away : next.pc.visiting = none) (unread : next.pc.reading = none)
    (others : ∀ visit ∈ state.pc.visiting, visit.priority = priority)
    (carried : ∀ other, other ≠ priority → next.carried other = state.carried other)
    (bound : deficit ≤ flow.quantum * next.carried priority) : next.Credited where
  stored := by
    intro other found registered _
    rw [flows, PriorityTable.set_apply] at registered
    split at registered
    · rename_i same
      cases registered
      rw [same]
      exact bound
    · rename_i different
      rw [carried other different]
      refine credited.stored other found registered ?_
      intro visit here same
      exact different (same.symm.trans (others visit here))
  visited := by simp [away]
  present := by simp [away]
  left := by simp [unread]

theorem enter_credited {state : State} (credited : state.Credited) {round : Round}
    (place : state.pc.visiting = none) {priority : Priority} {sockets : List Socket}
    {flow : FlowState} (registered : state.flowStates priority = some flow) :
    (state.enter round priority sockets flow).Credited := by
  have idle : ∀ visit ∈ state.pc.visiting, visit.priority ≠ priority := by simp [place]
  have old := credited.stored priority flow registered idle
  by_cases empty : (flow.deficit + flow.quantum) % wordBound = 0
  · simp only [enter, empty, ↓reduceIte]
    refine credited.settle 0 (setDeficit_flowStates registered 0) rfl rfl (by simp [place])
      (fun _ _ => rfl) (Nat.zero_le _)
  · simp only [enter, empty, ↓reduceIte]
    refine ⟨⟨?_, ?_⟩, ?_, by simp [Pc.reading]⟩
    · intro other found there away
      have different : other ≠ priority := fun same => away _ rfl same.symm
      simp only [setDeficit_flowStates registered, ne_eq, different, not_false_eq_true,
        PriorityTable.set_other] at there
      exact credited.stored other found there (by simp [place])
    · intro visit here found there
      cases here
      simp only [setDeficit_flowStates registered, PriorityTable.set_self] at there
      cases there
      have wrapped := Nat.mod_le (flow.deficit + flow.quantum) wordBound
      change 0 + (flow.deficit + flow.quantum) % wordBound ≤
        flow.quantum * (state.carried priority + 1)
      rw [Nat.mul_add, Nat.mul_one]
      omega
    · intro visit here
      cases here
      simp only [setDeficit_flowStates registered, PriorityTable.set_self]
      rfl

/-- What a visit stores is what it did not use; used up, it is nothing. -/
theorem leave_credited {state : State} (credited : state.Credited) {round : Round} {visit : Visit}
    (visiting : state.pc.visiting = some visit) : (state.leave round visit).Credited := by
  obtain ⟨flow, registered⟩ := Option.isSome_iff_exists.mp (credited.present visit visiting)
  have bound := credited.visited visit visiting flow registered
  refine credited.settle visit.localDeficit (setDeficit_flowStates registered _) rfl rfl ?_ ?_ ?_
  · intro other here
    rw [visiting] at here
    cases here
    rfl
  · intro other different
    exact PriorityTable.set_other different
  · simp only [leave, skip, PriorityTable.set_self]
    split
    · rename_i used
      rw [used]
      exact Nat.zero_le _
    · omega

theorem read_credited {state : State} (credited : state.Credited) {round : Round} {visit : Visit}
    (visiting : state.pc.visiting = some visit) (left : visit.localDeficit ≠ 0)
    (rest : List Socket) (payload : List UInt8) (room : Bool) :
    (state.read round visit rest payload room).Credited := by
  have now : (state.read round visit rest payload room).pc.visiting =
      some { visit with localDeficit := visit.localDeficit - 1 } := by
    cases room <;> rfl
  have unread : (state.read round visit rest payload room).pc.reading = none := by
    cases room <;> rfl
  refine ⟨⟨?_, ?_⟩, ?_, by simp [unread]⟩
  · intro other flow registered away
    refine credited.stored other flow registered ?_
    intro current here
    rw [visiting] at here
    cases here
    exact away { visit with localDeficit := visit.localDeficit - 1 } now
  · intro current here flow registered
    rw [now] at here
    cases here
    have bound := credited.visited visit visiting flow registered
    change state.consumed + 1 + (visit.localDeficit - 1) ≤
      flow.quantum * (state.carried visit.priority + 1)
    omega
  · intro current here
    rw [now] at here
    cases here
    exact credited.present visit visiting

theorem step_credited {state next : State} {action : Action} (credited : state.Credited)
    (stepped : state.step action = some next) : next.Credited := by
  cases step_move stepped with
  | addSocket socket priority latencyBudget quantum =>
      exact addSocket_credited credited socket priority latencyBudget quantum
  | tick | stop => exact credited.goto rfl rfl rfl rfl credited.left
  | idle place => exact credited
  | quit place | begin place | look place | again place | dry place =>
      exact credited.goto rfl rfl rfl (by rw [place]; rfl) (by simp [Pc.reading])
  | skip place | finish place =>
      exact credited.goto rfl rfl rfl (by rw [place]; rfl) (by simp [skip, finish, Pc.reading])
  | enter place running following snapshot registered =>
      exact enter_credited credited (by rw [place]; rfl) registered
  | socket place filled running left =>
      refine credited.goto rfl rfl rfl (by rw [place]; rfl) ?_
      rintro visit ⟨⟩
      exact left
  | @read round visit socket rest readAny byte bytes room place =>
      have left : visit.localDeficit ≠ 0 := credited.left visit (by rw [place]; rfl)
      exact read_credited credited (by rw [place]; rfl) left rest _ room
  | @leave round visit rest place spent =>
      exact leave_credited credited (visiting_of_leaving place).1

end State

/-- In every run a flow's deficit is at most its quantum for each visit since the
last one that used its credit up, and a visit reads at most one quantum more. -/
theorem creditBounded_throughout (actions : List Action) :
    TransitionSystem.Throughout State.step State.CreditBounded State.initial actions :=
  TransitionSystem.throughout_invariant State.step_credited State.Credited.toCreditBounded
    State.initial_credited actions

/-! ## An idle flow -/

def registered : State := State.initial.addSocket 0 .low (Duration.fromMillis 100) 1

def afterIdle (rounds : Nat) : State :=
  { registered with
    flowStates := registered.flowStates.set .low
      (some { quantum := 1, deficit := rounds, latencyBudget := Duration.fromMillis 100 })
    carried := registered.carried.set .low rounds }

def idleRound : List Action := [.run, .run, .run, .run, .recv .wouldBlock false, .run, .run]

theorem idle_round {rounds : Nat} (small : rounds + 1 < wordBound) :
    run (afterIdle rounds) idleRound = some (afterIdle (rounds + 1)) := by
  have unwrapped : (rounds + 1) % wordBound = rounds + 1 := Nat.mod_eq_of_lt small
  simp [idleRound, TransitionSystem.run, State.step, State.runStep, State.recvStep, afterIdle,
    registered, State.initial, State.addSocket, State.snapshot, State.enter, State.setDeficit,
    State.skip, State.polled, State.leave, State.finish, unwrapped]

theorem registered_eq : registered = afterIdle 0 := by
  have flows : registered.flowStates = registered.flowStates.set .low
      (some { quantum := 1, deficit := 0, latencyBudget := Duration.fromMillis 100 }) := by
    funext priority
    cases priority <;> rfl
  have carried : registered.carried = registered.carried.set .low 0 := by
    funext priority
    cases priority <;> rfl
  rw [afterIdle, ← flows, ← carried]

/-- Idle rounds add up without a limit other than the machine word. -/
theorem idle_rounds {rounds : Nat} (small : rounds < wordBound) :
    run (afterIdle 0) (List.replicate rounds idleRound).flatten = some (afterIdle rounds) := by
  induction rounds with
  | zero => rfl
  | succ rounds ih =>
      have split : run (afterIdle 0) (List.replicate (rounds + 1) idleRound).flatten =
          (run (afterIdle 0) (List.replicate rounds idleRound).flatten).bind fun middle =>
            run middle idleRound := by
        rw [List.replicate_succ', List.flatten_append, List.flatten_singleton]
        exact TransitionSystem.run_append _ _ _
      rw [split, ih (Nat.lt_of_succ_lt small), Option.bind_some]
      exact idle_round small

/-- The deficit stored between rounds has no bound in terms of the quantum below
the machine word. -/
theorem carried_credit_unbounded :
    ¬ ∃ bound : Nat → Nat, bound 1 < wordBound ∧ ∀ actions reached priority flow,
      run State.initial actions = some reached → reached.pc = .top →
        reached.flowStates priority = some flow → flow.deficit < bound flow.quantum := by
  rintro ⟨bound, word, bounded⟩
  have ran : run State.initial (.addSocket 0 .low (Duration.fromMillis 100) 1 ::
      (List.replicate (bound 1) idleRound).flatten) = some (afterIdle (bound 1)) := by
    rw [← idle_rounds word, ← registered_eq]
    rfl
  have stored : (afterIdle (bound 1)).flowStates .low =
      some { quantum := 1, deficit := bound 1, latencyBudget := Duration.fromMillis 100 } := by
    simp [afterIdle]
  exact Nat.lt_irrefl _ (bounded _ _ .low _ ran rfl stored)

end EdfPipeline.Ingress
