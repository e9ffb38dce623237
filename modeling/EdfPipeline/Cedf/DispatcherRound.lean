import EdfPipeline.Cedf.Conservation
import EdfPipeline.Cedf.WorkerChoice

/-!
# One iteration of the dispatcher

After all High packets the loop over the lower classes ends at the first packet
it finds, so a class is passed over while one above it has packets waiting.
-/

set_option autoImplicit false

namespace EdfPipeline.Cedf

open TransitionSystem

/-- The classes of the second loop, in its order. -/
def lowerClasses : List Priority := [.medium, .low, .bestEffort]

namespace State

variable {n : Nat}

/-- What the dispatcher takes from an input channel. -/
def dispatched (state : State n) : Action n → Option (Priority × Packet)
  | .dispatch => state.received .dispatch
  | _ => none

/-- The dispatcher does not begin another iteration, and nobody else puts a
packet on an input channel or takes one from it. -/
def Undisturbed (state : State n) : Action n → Prop
  | .dispatch => state.dispatcher ≠ .top
  | action => ∀ next, state.step action = some next →
      ∀ priority, (next.inputQueues priority).queue = (state.inputQueues priority).queue

/-- An iteration of `dispatcher_loop`, with what else happens meanwhile. -/
structure Iteration (state : State n) (actions : List (Action n))
    (history : State n × Past (State n) (Action n)) : Prop where
  ran : TransitionSystem.run (recorded step) (state, []) (.dispatch :: actions) = some history
  undisturbed : ∀ began ∈ recorded step (state, []) .dispatch,
    Along (recorded step) (fun history => history.1.Undisturbed) began actions
  ended : history.1.dispatcher = .top

def allHigh (state : State n) : List (Priority × Packet) :=
  (state.inputQueues .high).queue.map (Prod.mk .high)

structure ServesEveryClass (state : State n) : Prop where
  ends : ∃ actions history, state.Iteration actions history
  takes : ∀ {actions history}, state.Iteration actions history →
    observed dispatched history.2 = state.allHigh ++ lowerClasses.filterMap state.front

def AtMostOneWaits (state : State n) : Prop :=
  ∀ priority ∈ lowerClasses, ∀ other ∈ lowerClasses, (state.inputQueues priority).queue ≠ [] →
    (state.inputQueues other).queue ≠ [] → priority = other

/-! ## What an iteration takes -/

/-- The first packet found in a loop over these classes. -/
def firstOf (state : State n) (classes : List Priority) : List (Priority × Packet) :=
  (classes.findSome? state.front).toList

/-- What the rest of the iteration takes. -/
def due (state : State n) : List (Priority × Packet) :=
  match state.dispatcher with
  | .high _ => state.allHigh ++ state.firstOf lowerClasses
  | .lower _ rest => state.firstOf rest
  | .completion _ task _ _ | .depth _ task _ _ _ =>
      if task.priority = .high then state.allHigh ++ state.firstOf lowerClasses else []
  | .top | .returned => []

theorem due_eq {state next : State n} (same : next.dispatcher = state.dispatcher)
    (queues : ∀ priority, (next.inputQueues priority).queue = (state.inputQueues priority).queue) :
    next.due = state.due := by
  have fronts : next.front = state.front := by
    funext priority
    rw [front, front, queues]
  simp only [due, allHigh, firstOf, same, queues, fronts]

end State

/-- The second loop is over lower classes. -/
def DispatcherPc.LowerOnly : DispatcherPc → Prop
  | .lower _ rest => .high ∉ rest
  | _ => True

namespace State

variable {n : Nat}

theorem allHigh_taken {state : State n} {packet : Packet} {remaining : Channel Packet}
    (taken : (state.inputQueues .high).tryRecv = .ok (packet, remaining)) :
    state.allHigh = (.high, packet) :: (state.setInput .high remaining).allHigh := by
  simp only [allHigh, (Channel.tryRecv_ok taken).1, setInput, PriorityTable.set_self, List.map_cons]

theorem allHigh_none {state : State n} {error : TryRecvError}
    (failed : (state.inputQueues .high).tryRecv = .error error) : state.allHigh = [] := by
  rw [allHigh, Channel.tryRecv_error failed]
  rfl

theorem DispatchMove.due {state next : State n} (move : DispatchMove state next)
    (within : state.dispatcher ≠ .top) (lowerOnly : state.dispatcher.LowerOnly) :
    state.due = (state.dispatched .dispatch).toList ++ next.due ∧ next.dispatcher.LowerOnly := by
  cases move with
  | top place => exact absurd place within
  | takeHigh place taken =>
      refine ⟨?_, trivial⟩
      simp only [dispatched, received, place, front_ok taken, State.due, allHigh_taken taken]
      rfl
  | noHigh place failed =>
      refine ⟨?_, by simp [DispatcherPc.LowerOnly]⟩
      simp only [dispatched, received, place, front_error failed, State.due, allHigh_none failed]
      rfl
  | @takeLower now priority rest packet remaining place taken =>
      simp only [place, DispatcherPc.LowerOnly, List.mem_cons, not_or] at lowerOnly
      refine ⟨?_, trivial⟩
      have lower : (QueuedTask.of priority packet now).priority ≠ .high := Ne.symm lowerOnly.1
      simp only [dispatched, received, place, front_ok taken, State.due, if_neg lower, firstOf,
        List.findSome?_cons]
      rfl
  | skip place failed =>
      simp only [place, DispatcherPc.LowerOnly, List.mem_cons, not_or] at lowerOnly
      refine ⟨?_, lowerOnly.2⟩
      simp only [dispatched, received, place, front_error failed, State.due, firstOf,
        List.findSome?_cons]
      rfl
  | lowerDone place | scan place | keep place =>
      refine ⟨?_, trivial⟩
      simp only [dispatched, received, place, State.due]
      rfl
  | @assign now task scan index place scanned chosen =>
      simp only [dispatched, received, place, State.due]
      cases task.priority with
      | high => exact ⟨rfl, trivial⟩
      | _ => exact ⟨rfl, trivial⟩

theorem WorkerMove.dispatcher {state next : State n} {id : Fin n} (move : WorkerMove state id next) :
    next.dispatcher = state.dispatcher := by
  cases move <;> rfl

/-- Only the dispatcher moves the dispatcher. -/
theorem step_dispatcher {state next : State n} {action : Action n} (other : action ≠ .dispatch)
    (stepped : state.step action = some next) : next.dispatcher = state.dispatcher := by
  cases step_moves stepped with
  | dispatch move => exact absurd rfl other
  | run move => exact move.dispatcher
  | arrive | disconnect | tick | stop | pop | forward => rfl

/-- What was taken and what is still due make up what was due when the iteration began. -/
structure Serving (whole : List (Priority × Packet))
    (history : State n × Past (State n) (Action n)) : Prop where
  account : whole = observed dispatched history.2 ++ history.1.due
  lowerOnly : history.1.dispatcher.LowerOnly

theorem step_serving {whole : List (Priority × Packet)}
    {history next : State n × Past (State n) (Action n)} {action : Action n}
    (serving : Serving whole history) (undisturbed : history.1.Undisturbed action)
    (stepped : recorded step history action = some next) : Serving whole next := by
  obtain ⟨state, past⟩ := history
  obtain ⟨after, later⟩ := next
  obtain ⟨moved, rfl⟩ := recorded_eq_some.mp stepped
  obtain ⟨account, lowerOnly⟩ := serving
  by_cases own : action = .dispatch
  · subst own
    obtain ⟨due, still⟩ := (dispatch_moves moved).due undisturbed lowerOnly
    refine ⟨?_, still⟩
    rw [account, due, observed_append, List.append_assoc]
  · have queues : ∀ priority,
        (after.inputQueues priority).queue = (state.inputQueues priority).queue := by
      cases action with
      | dispatch => exact absurd rfl own
      | _ => exact undisturbed after moved
    have same := step_dispatcher own moved
    have quiet : state.dispatched action = none := by
      cases action with
      | dispatch => exact absurd rfl own
      | _ => rfl
    refine ⟨?_, ?_⟩
    · rw [observed_none quiet, due_eq same queues, ← account]
    · rw [same]
      exact lowerOnly

/-- An iteration takes all High packets and the first one of the lower classes. -/
theorem Iteration.takes {state : State n} {actions : List (Action n)}
    {history : State n × Past (State n) (Action n)} (iteration : state.Iteration actions history)
    (ready : state.dispatcher = .top) (running : state.running = true) :
    observed dispatched history.2 = state.allHigh ++ state.firstOf lowerClasses := by
  obtain ⟨ran, undisturbed, ended⟩ := iteration
  obtain ⟨⟨began, past⟩, first, rest⟩ := TransitionSystem.run_cons_eq_some.mp ran
  have guarded := undisturbed _ first
  obtain ⟨moved, rfl⟩ := recorded_eq_some.mp first
  simp only [step, dispatch, ready, running, if_true, Option.some.injEq] at moved
  have start : Serving (state.allHigh ++ state.firstOf lowerClasses)
      (began, [(state, Action.dispatch)]) := by
    have quiet : state.dispatched .dispatch = none := by simp only [dispatched, received, ready]
    subst moved
    exact ⟨congrArg (· ++ _) (@observed_none _ _ _ _ [] _ _ quiet).symm, trivial⟩
  have served := TransitionSystem.run_guarded step_serving start guarded rest
  rw [served.account, due, ended, List.append_nil]

/-! ## An iteration ends -/

/-- The second loop ends, whatever the queues hold. -/
theorem lower_ends (state : State (n + 1)) (now : Instant) {rest : List Priority}
    (lower : .high ∉ rest) :
    ∃ final, Relation.ReflTransGen Dispatches (state.withDispatcher (.lower now rest)) final ∧
      final.dispatcher = .top := by
  induction rest with
  | nil => exact ⟨state.withDispatcher .top, .single ⟨by simp [withDispatcher], rfl⟩, rfl⟩
  | cons priority rest ih =>
      simp only [List.mem_cons, not_or] at lower
      have within : (state.withDispatcher (.lower now (priority :: rest))).dispatcher ≠ .top := by
        simp [withDispatcher]
      cases received : (state.inputQueues priority).tryRecv with
      | error error =>
          obtain ⟨final, ends, top⟩ := ih lower.2
          refine ⟨final, .head ⟨within, ?_⟩ ends, top⟩
          simp only [step, dispatch, withDispatcher, received]
      | ok result =>
          obtain ⟨packet, remaining⟩ := result
          let task := QueuedTask.of priority packet now
          obtain ⟨_, _, assigned⟩ := (state.setInput priority remaining).dispatch_assigns now task
          refine ⟨_, .head ⟨within, ?_⟩ assigned, ?_⟩
          · simp only [step, dispatch, withDispatcher, received]
            rfl
          · have other := Ne.symm lower.1
            cases priority with
            | high => exact absurd rfl other
            | _ => rfl

/-- The first loop ends when the High packets are taken. -/
theorem high_ends {queue : List Packet} (state : State (n + 1)) (now : Instant)
    (queued : (state.inputQueues .high).queue = queue) :
    ∃ final, Relation.ReflTransGen Dispatches (state.withDispatcher (.high now)) final ∧
      final.dispatcher = .top := by
  induction queue generalizing state with
  | nil =>
      have failed : (state.inputQueues .high).tryRecv =
          .error (if (state.inputQueues .high).disconnected then .disconnected else .empty) := by
        rw [Channel.tryRecv, queued]
      have lower : .high ∉ lowerClasses := by decide
      obtain ⟨final, ends, top⟩ := state.lower_ends now lower
      refine ⟨final, .head ⟨by simp [withDispatcher], ?_⟩ ends, top⟩
      simp only [step, dispatch, withDispatcher, failed]
      rfl
  | cons packet rest ih =>
      let remaining : Channel Packet := { state.inputQueues .high with queue := rest }
      have taken : (state.inputQueues .high).tryRecv = .ok (packet, remaining) := by
        rw [Channel.tryRecv, queued]
      let task := QueuedTask.of .high packet now
      obtain ⟨chosen, _, assigned⟩ := (state.setInput .high remaining).dispatch_assigns now task
      let left := (state.setInput .high remaining).setQueue chosen
        (((state.setInput .high remaining).queues chosen).push task)
      obtain ⟨final, ends, top⟩ := ih left rfl
      refine ⟨final, .head ⟨by simp [withDispatcher], ?_⟩ (assigned.trans ends), top⟩
      simp only [step, dispatch, withDispatcher, taken]
      rfl

theorem iteration_exists {state : State (n + 1)} (ready : state.dispatcher = .top)
    (running : state.running = true) : ∃ actions history, state.Iteration actions history := by
  obtain ⟨final, ends, top⟩ := state.high_ends state.clock rfl
  have steps : Relation.ReflTransGen
      (fun before after => ∃ action, before.Undisturbed action ∧ before.step action = some after)
      (state.withDispatcher (.high state.clock)) final :=
    Relation.ReflTransGen.mono (fun _ _ dispatches => ⟨.dispatch, dispatches⟩) _ _ ends
  obtain ⟨actions, guarded, ran⟩ := TransitionSystem.exists_guarded_run steps
  have first : state.step .dispatch = some (state.withDispatcher (.high state.clock)) := by
    simp only [step, dispatch, ready, running, if_true, withDispatcher]
  have whole : run state (.dispatch :: actions) = some final :=
    TransitionSystem.run_cons_eq_some.mpr ⟨_, first, ran⟩
  obtain ⟨past, recording⟩ := exists_recorded whole []
  refine ⟨actions, (final, past), recording, ?_, top⟩
  rintro ⟨began, past⟩ stepped
  obtain ⟨moved, rfl⟩ := recorded_eq_some.mp stepped
  cases first.symm.trans moved
  exact along_recorded.mpr guarded

/-! ## When no class is passed over -/

theorem atMostOneWaits_iff (state : State n) :
    state.firstOf lowerClasses = lowerClasses.filterMap state.front ↔ state.AtMostOneWaits := by
  have waits (priority : Priority) :
      (state.inputQueues priority).queue ≠ [] ↔ (state.front priority).isSome := by
    rw [front, Option.isSome_map, List.isSome_head?]
  simp only [AtMostOneWaits, waits, firstOf, lowerClasses]
  cases medium : state.front .medium <;> cases low : state.front .low <;>
    cases bestEffort : state.front .bestEffort <;> simp [medium, low, bestEffort]

/-- An iteration serves every class that has packets waiting exactly if at most one
of the lower classes has. -/
theorem iteration_serves_iff (state : State (n + 1)) (ready : state.dispatcher = .top)
    (running : state.running = true) : state.ServesEveryClass ↔ state.AtMostOneWaits := by
  rw [← atMostOneWaits_iff]
  constructor
  · intro serves
    obtain ⟨actions, history, iteration⟩ := serves.ends
    have taken := iteration.takes ready running
    exact List.append_cancel_left (taken.symm.trans (serves.takes iteration))
  · intro same
    refine ⟨iteration_exists ready running, ?_⟩
    intro _ _ iteration
    rw [iteration.takes ready running, same]

/-! ## A Medium and a Low packet -/

def backlog : List (Action 1) :=
  [.arrive (Packet.fromBuffer 0 0 .medium [0] (Duration.fromMillis 10)),
    .arrive (Packet.fromBuffer 1 0 .low [0] (Duration.fromMillis 100))]

def backlogged : State 1 := (run (initial 1) backlog).getD (initial 1)

theorem low_passed_over :
    run (initial 1) backlog = some backlogged ∧ ¬ backlogged.ServesEveryClass := by
  refine ⟨rfl, ?_⟩
  intro serves
  obtain ⟨_, _, iteration⟩ := serves.ends
  have both := serves.takes iteration
  rw [iteration.takes rfl rfl] at both
  revert both
  decide +kernel

theorem backlogged_serves_iff :
    backlogged.dispatcher = .top ∧ backlogged.running = true ∧
      (backlogged.ServesEveryClass ↔ backlogged.AtMostOneWaits) :=
  ⟨rfl, rfl, backlogged.iteration_serves_iff rfl rfl⟩

end State

end EdfPipeline.Cedf
