import EdfPipeline.Ingress.Visits
import Mathlib.Data.List.Rotate

/-!
# The flows of a round

A round visits the flows that were active when it began, each once, starting
from the current index.
-/

set_option autoImplicit false

namespace EdfPipeline.Ingress

open TransitionSystem

/-- The number of flows of the round that have been visited or are being visited. -/
def Pc.entered : Pc → Nat
  | .flow round => round.done
  | .visit round _ | .poll round _ _ _ | .receive round _ _ _ => round.done + 1
  | .top | .returned => 0

/-- The flows of a round in the order it visits them. -/
def Round.order (round : Round) : List Priority := round.activeFlows.rotate round.currentIndex

theorem Round.take_order {round : Round} (more : round.done < round.activeFlows.length) :
    round.order.take (round.done + 1) = round.order.take round.done ++ round.next.toList := by
  rw [List.take_add_one, Round.order, List.getElem?_rotate more, Round.next, if_pos more,
    Nat.add_comm]

theorem Round.exists_next {round : Round} (more : round.done < round.activeFlows.length) :
    ∃ priority, round.next = some priority := by
  have inside := Nat.mod_lt (round.currentIndex + round.done) (Nat.zero_lt_of_lt more)
  exact ⟨_, (if_pos more).trans (List.getElem?_eq_getElem inside)⟩

/-- The next flow of a round is one of its flows. -/
theorem Round.next_mem {round : Round} {priority : Priority} (next : round.next = some priority) :
    round.done < round.activeFlows.length ∧ priority ∈ round.activeFlows := by
  unfold Round.next at next
  split at next
  · rename_i more
    exact ⟨more, List.mem_of_getElem? next⟩
  · cases next

namespace State

/-- The flow a step begins to visit, with its quantum added. -/
def visited (state : State) : Action → Option Priority
  | .run =>
      match state.pc with
      | .flow round =>
          if state.running then
            round.next.filter fun priority =>
              (round.snapshotMap priority).isSome && (state.flowStates priority).isSome
          else none
      | _ => none
  | _ => none

theorem visited_leaving {state : State} {round : Round} {visit : Visit} {rest : List Socket}
    (place : state.pc = .visit round visit ∨ state.pc = .poll round visit rest false) :
    state.visited .run = none := by
  rcases place with place | place <;> simp [visited, place]

/-- Between rounds the active flows are noted, during a round the flows it visits. -/
def track (progress : List Priority × List Priority) (entry : State × Action) :
    List Priority × List Priority :=
  match entry.1.pc.round with
  | none => (entry.1.activeFlows, [])
  | some _ => (progress.1, progress.2 ++ (entry.1.visited entry.2).toList)

/-- The flows that were active when the last round began, and those it has visited. -/
def lastRound (past : Past State Action) : List Priority × List Priority :=
  past.foldl track ([], [])

theorem lastRound_append (past : Past State Action) (state : State) (action : Action) :
    lastRound (past ++ [(state, action)]) = track (lastRound past) (state, action) := by
  rw [lastRound, List.foldl_append]
  rfl

/-- There is no shutdown during a round, and no credit counter wraps around. -/
def Regular (history : State × Past State Action) : Action → Prop
  | .stop => history.1.pc.round.isNone
  | .run => ∀ priority ∈ history.1.visited .run, ∀ flow ∈ history.1.flowStates priority,
      flow.deficit + flow.quantum < wordBound
  | _ => True

instance decidableRegular (history : State × Past State Action) :
    ∀ action, Decidable (Regular history action)
  | .stop => inferInstanceAs (Decidable (history.1.pc.round.isNone = true))
  | .run => inferInstanceAs (Decidable (∀ priority ∈ history.1.visited .run,
      ∀ flow ∈ history.1.flowStates priority, flow.deficit + flow.quantum < wordBound))
  | .addSocket _ _ _ _ | .tick _ | .recv _ _ => isTrue trivial

/-- What a round knows of its flows, and how far it has come. -/
structure Covering (state : State) (progress : List Priority × List Priority) : Prop where
  nodup : state.activeFlows.Nodup
  known : ∀ priority ∈ state.activeFlows, (state.flowStates priority).isSome
  polled : ∀ priority, (state.flowStates priority).isSome → state.socketConfigs priority ≠ []
  running : ∀ round ∈ state.pc.round, state.running = true
  distinct : ∀ round ∈ state.pc.round, round.activeFlows.Nodup
  snapshot : ∀ round ∈ state.pc.round, ∀ priority ∈ round.activeFlows,
    (round.snapshotMap priority).isSome ∧ (state.flowStates priority).isSome
  sockets : ∀ round ∈ state.pc.round, ∀ priority, ∀ sockets ∈ round.snapshotMap priority,
    sockets ≠ []
  visiting : ∀ visit ∈ state.pc.visiting, visit.sockets ≠ []
  bounded : ∀ round ∈ state.pc.round, state.pc.entered ≤ round.activeFlows.length
  progress : ∀ round ∈ state.pc.round,
    progress = (round.activeFlows, round.order.take state.pc.entered)

theorem initial_covering : initial.Covering ([], []) where
  nodup := List.nodup_nil
  known := by simp [initial]
  polled := by simp [initial]
  running := by simp [initial, Pc.round]
  distinct := by simp [initial, Pc.round]
  snapshot := by simp [initial, Pc.round]
  sockets := by simp [initial, Pc.round]
  visiting := by simp [initial, Pc.visiting]
  bounded := by simp [initial, Pc.round]
  progress := by simp [initial, Pc.round]

/-- A step that visits nothing new leaves the progress of the round as it is. -/
theorem track_quiet {state : State} {progress : List Priority × List Priority} {action : Action}
    {round : Round} (inRound : state.pc.round = some round)
    (quiet : state.visited action = none) : track progress (state, action) = progress := by
  simp only [track, inRound, quiet, Option.toList_none, List.append_nil]

theorem addSocket_covering {state : State} {progress : List Priority × List Priority}
    (covering : state.Covering progress) (socket : Socket) (priority : Priority)
    (latencyBudget : Duration) (quantum : Nat) :
    (state.addSocket socket priority latencyBudget quantum).Covering
      (track progress (state, .addSocket socket priority latencyBudget quantum)) := by
  have kept (other : Priority) (registered : (state.flowStates other).isSome) :
      ((state.addSocket socket priority latencyBudget quantum).flowStates other).isSome := by
    simp only [addSocket, PriorityTable.set_apply]
    split
    · rfl
    · exact registered
  refine { covering with nodup := ?_, known := ?_, polled := ?_, snapshot := ?_, progress := ?_ }
  · simp only [addSocket]
    split
    · exact covering.nodup
    · rename_i new
      exact List.Nodup.append covering.nodup (List.nodup_singleton _)
        (List.disjoint_singleton.mpr new)
  · intro other member
    simp only [addSocket] at member
    split at member
    · exact kept other (covering.known other member)
    · rcases List.mem_append.mp member with earlier | new
      · exact kept other (covering.known other earlier)
      · rw [List.mem_singleton.mp new]
        simp [addSocket]
  · intro other registered
    simp only [addSocket, PriorityTable.set_apply] at registered ⊢
    split
    · simp
    · rename_i different
      rw [if_neg different] at registered
      exact covering.polled other registered
  · intro round inRound other member
    exact (covering.snapshot round inRound other member).imp_right (kept other)
  · intro round inRound
    have here : state.pc.round = some round := inRound
    rw [track_quiet here rfl]
    exact covering.progress round inRound

@[simp] theorem setDeficit_isSome (state : State) (priority other : Priority) (deficit : Nat) :
    ((state.setDeficit priority deficit).flowStates other).isSome =
      (state.flowStates other).isSome := by
  by_cases same : other = priority
  · subst same
    simp [setDeficit]
  · simp [setDeficit, same]

theorem setDeficit_eq_none {state : State} {priority other : Priority} {deficit : Nat}
    (none_ : (state.setDeficit priority deficit).flowStates other = none) :
    state.flowStates other = none := by
  have same := setDeficit_isSome state priority other deficit
  rw [none_] at same
  exact Option.not_isSome_iff_eq_none.mp (Bool.eq_false_iff.mp same.symm)

/-- A round goes on. -/
theorem Covering.advance {state next : State} {progress progress' : List Priority × List Priority}
    (covering : state.Covering progress) {round following : Round}
    (inRound : state.pc.round = some round) (nextRound : next.pc.round = some following)
    (flows : following.activeFlows = round.activeFlows)
    (index : following.currentIndex = round.currentIndex)
    (snapshotMap : following.snapshotMap = round.snapshotMap)
    (active : next.activeFlows = state.activeFlows)
    (registered : ∀ priority, (next.flowStates priority).isSome = (state.flowStates priority).isSome)
    (configs : next.socketConfigs = state.socketConfigs) (running : next.running = state.running)
    (visiting : ∀ visit ∈ next.pc.visiting, visit.sockets ≠ [])
    (bounded : next.pc.entered ≤ round.activeFlows.length)
    (progressed : progress' = (round.activeFlows, round.order.take next.pc.entered)) :
    next.Covering progress' where
  nodup := active ▸ covering.nodup
  known := by
    rw [active]
    simpa only [registered] using covering.known
  polled := by
    rw [configs]
    simpa only [registered] using covering.polled
  running := by
    rw [running]
    intro _ _
    exact covering.running round inRound
  distinct := by
    intro other here
    cases nextRound.symm.trans here
    exact flows ▸ covering.distinct round inRound
  snapshot := by
    intro other here
    cases nextRound.symm.trans here
    simpa only [flows, snapshotMap, registered] using covering.snapshot round inRound
  sockets := by
    intro other here
    cases nextRound.symm.trans here
    exact snapshotMap ▸ covering.sockets round inRound
  visiting := visiting
  bounded := by
    intro other here
    cases nextRound.symm.trans here
    exact flows ▸ bounded
  progress := by
    intro other here
    cases nextRound.symm.trans here
    rw [progressed, Round.order, Round.order, flows, index]

/-- A visit goes on. -/
theorem Covering.within {state next : State} {progress : List Priority × List Priority}
    {action : Action} (covering : state.Covering progress) {round : Round} {visit : Visit}
    (inRound : state.pc.round = some round) (here : state.pc.visiting = some visit)
    (quiet : state.visited action = none) (same : next.pc.round = some round)
    (entered : next.pc.entered = state.pc.entered)
    (visits : ∀ other ∈ next.pc.visiting, other.sockets = visit.sockets)
    (active : next.activeFlows = state.activeFlows)
    (registered : next.flowStates = state.flowStates)
    (configs : next.socketConfigs = state.socketConfigs) (running : next.running = state.running) :
    next.Covering (track progress (state, action)) := by
  rw [track_quiet inRound quiet]
  refine covering.advance inRound same rfl rfl rfl active (fun _ => by rw [registered]) configs
    running (fun other there => ?_) (entered ▸ covering.bounded round inRound) ?_
  · rw [visits other there]
    exact covering.visiting visit here
  · rw [entered]
    exact covering.progress round inRound

theorem Covering.outside {state next : State} {progress progress' : List Priority × List Priority}
    (covering : state.Covering progress) (none_ : next.pc.round = none)
    (away : next.pc.visiting = none) (active : next.activeFlows = state.activeFlows)
    (flows : next.flowStates = state.flowStates)
    (configs : next.socketConfigs = state.socketConfigs) : next.Covering progress' where
  nodup := active ▸ covering.nodup
  known := by
    rw [active, flows]
    exact covering.known
  polled := by
    rw [flows, configs]
    exact covering.polled
  running := by simp [none_]
  distinct := by simp [none_]
  snapshot := by simp [none_]
  sockets := by simp [none_]
  visiting := by simp [away]
  bounded := by simp [none_]
  progress := by simp [none_]

theorem begin_covering {state : State} {progress : List Priority × List Priority}
    (covering : state.Covering progress) (place : state.pc = .top) (running : state.running = true) :
    { state with pc := .flow state.snapshot }.Covering (track progress (state, .run)) where
  nodup := covering.nodup
  known := covering.known
  polled := covering.polled
  running := fun _ _ => running
  distinct := by
    intro round here
    cases here
    exact covering.nodup
  snapshot := by
    intro round here priority member
    cases here
    have registered := covering.known priority member
    refine ⟨?_, registered⟩
    simp only [State.snapshot]
    rw [if_pos ⟨member, registered⟩]
    rfl
  sockets := by
    intro round here priority sockets found
    cases here
    simp only [State.snapshot, Option.mem_def, Option.ite_none_right_eq_some, Option.some.injEq]
      at found
    exact found.2 ▸ covering.polled priority found.1.2
  visiting := by simp [Pc.visiting]
  bounded := fun _ _ => Nat.zero_le _
  progress := by
    intro round here
    cases here
    simp only [track, place, Pc.round, Pc.entered, State.snapshot, List.take_zero]

theorem Covering.present {state : State} {progress : List Priority × List Priority}
    (covering : state.Covering progress) {round : Round} (inRound : state.pc.round = some round)
    {priority : Priority} (next : round.next = some priority) :
    (round.snapshotMap priority).isSome ∧ (state.flowStates priority).isSome :=
  covering.snapshot round inRound priority (Round.next_mem next).2

theorem Covering.nothing_missing {state : State} {progress : List Priority × List Priority}
    (covering : state.Covering progress) {round : Round} (inRound : state.pc.round = some round)
    (missing : ∀ priority ∈ round.next,
      round.snapshotMap priority = none ∨ state.flowStates priority = none)
    (more : round.done < round.activeFlows.length) : False := by
  obtain ⟨priority, next⟩ := Round.exists_next more
  obtain ⟨snapshot, registered⟩ := covering.present inRound next
  rcases missing priority next with none_ | none_
  · rw [none_] at snapshot
    cases snapshot
  · rw [none_] at registered
    cases registered

theorem Covering.visits {state : State} {progress : List Priority × List Priority}
    (covering : state.Covering progress) {round : Round} {priority : Priority}
    (place : state.pc = .flow round) (next : round.next = some priority) :
    state.visited .run = some priority := by
  have inRound : state.pc.round = some round := place ▸ rfl
  have present := covering.present inRound next
  simp [visited, place, covering.running round inRound, next, Option.filter, present]

theorem enter_covering {state : State} {progress : List Priority × List Priority}
    (covering : state.Covering progress) {round : Round} {priority : Priority}
    {sockets : List Socket} {flow : FlowState} (place : state.pc = .flow round)
    (next : round.next = some priority) (snapshot : round.snapshotMap priority = some sockets) :
    (state.enter round priority sockets flow).Covering (track progress (state, .run)) := by
  have inRound : state.pc.round = some round := place ▸ rfl
  obtain ⟨more, _⟩ := Round.next_mem next
  have progressed : track progress (state, .run) =
      (round.activeFlows, round.order.take (round.done + 1)) := by
    have before := covering.progress round inRound
    rw [place] at before
    rw [Round.take_order more, next]
    simp only [track, inRound, covering.visits place next, before]
    rfl
  simp only [enter]
  split
  · exact covering.advance inRound rfl rfl rfl rfl rfl (by simp [skip]) rfl rfl
      (by simp [skip, Pc.visiting]) more progressed
  · refine covering.advance inRound rfl rfl rfl rfl rfl (by simp) rfl rfl (fun visit here => ?_) more
      progressed
    cases here
    exact covering.sockets round inRound priority sockets snapshot

theorem visiting_of_round {pc : Pc} (between : pc.round = none) : pc.visiting = none := by
  cases pc with
  | top | returned => rfl
  | _ => cases between

theorem step_covering {history next : State × Past State Action} {action : Action}
    (covering : history.1.Covering (lastRound history.2)) (regular : Regular history action)
    (stepped : recorded step history action = some next) :
    next.1.Covering (lastRound next.2) := by
  obtain ⟨state, past⟩ := history
  obtain ⟨after, later⟩ := next
  obtain ⟨moved, same⟩ := recorded_eq_some.mp stepped
  simp only at moved same covering
  subst same
  rw [lastRound_append]
  cases step_move moved with
  | addSocket socket priority latencyBudget quantum =>
      exact addSocket_covering covering socket priority latencyBudget quantum
  | tick elapsed =>
      refine { covering with progress := ?_ }
      intro round inRound
      have here : state.pc.round = some round := inRound
      rw [track_quiet here rfl]
      exact covering.progress round inRound
  | stop =>
      have between : state.pc.round = none := Option.isNone_iff_eq_none.mp regular
      exact covering.outside between (visiting_of_round between) rfl rfl rfl
  | idle place => exact covering.outside (place ▸ rfl) (place ▸ rfl) rfl rfl rfl
  | quit place stopped => exact covering.outside rfl rfl rfl rfl rfl
  | begin place running => exact begin_covering covering place running
  | skip place running missing more =>
      exact (covering.nothing_missing (place ▸ rfl) missing more).elim
  | enter place running next snapshot registered => exact enter_covering covering place next snapshot
  | finish place ends => exact covering.outside rfl rfl rfl rfl rfl
  | look place | socket place | again place =>
      refine covering.within (by rw [place]; rfl) (by rw [place]; rfl) (by simp [visited, place]) rfl
        (by rw [place]; rfl) (fun other there => ?_) rfl rfl rfl rfl
      cases there
      rfl
  | dry place nothing =>
      refine covering.within (by rw [place]; rfl) (by rw [place]; rfl) rfl rfl (by rw [place]; rfl)
        (fun other there => ?_) rfl rfl rfl rfl
      cases there
      rfl
  | read place =>
      rename_i round visit socket rest readAny byte bytes room
      cases room with
      | true | false =>
          refine covering.within (by rw [place]; rfl) (by rw [place]; rfl) rfl rfl
            (by rw [place]; rfl) (fun other there => ?_) rfl rfl rfl rfl
          cases there
          rfl
  | leave place spent =>
      rename_i round visit rest
      have inRound : state.pc.round = some round := (visiting_of_leaving place).2
      have entered : state.pc.entered = round.done + 1 := by
        rcases place with place | place <;> rw [place] <;> rfl
      rw [track_quiet inRound (visited_leaving place)]
      refine covering.advance inRound rfl rfl rfl rfl rfl (by simp [leave, skip]) rfl rfl
        (by simp [leave, skip, Pc.visiting]) ?_ ?_
      · have bounded := covering.bounded round inRound
        rwa [entered] at bounded
      · have progress := covering.progress round inRound
        rwa [entered] at progress

/-- A round ends when it has visited all its flows. -/
theorem Covering.whole {state next : State} {progress : List Priority × List Priority}
    (covering : state.Covering progress) {round : Round} (place : state.pc = .flow round)
    (stepped : state.step .run = some next) (ends : next.pc = .top) :
    progress = (round.activeFlows, round.order) := by
  have inRound : state.pc.round = some round := place ▸ rfl
  have ended (full : round.activeFlows.length ≤ round.done) :
      progress = (round.activeFlows, round.order) := by
    have before := covering.progress round inRound
    rw [place] at before
    have all : round.order.take round.done = round.order := by
      refine List.take_of_length_le ?_
      rwa [Round.order, List.length_rotate]
    exact before.trans (congrArg _ all)
  cases step_move stepped with
  | finish there full =>
      cases place.symm.trans there
      refine ended (full.resolve_right ?_)
      intro stopped
      exact Bool.false_ne_true (stopped.symm.trans (covering.running round inRound))
  | enter there running next snapshot registered =>
      simp only [enter] at ends
      split at ends <;> cases ends
  | idle there | quit there | begin there | look there | socket there | again there =>
      cases place.symm.trans there
  | skip there => cases ends
  | leave there spent => cases ends

end State

end EdfPipeline.Ingress
