import EdfPipeline.Egress.Moves

/-!
# Strict priority at the egress

A pass polls every class once, so it goes on below a class that still has
packets. A receive skips a waiting class exactly when the pass received before
from a class it did not empty, or below one that was not empty.
-/

set_option autoImplicit false

namespace EdfPipeline.Egress

namespace State

def dequeues (state : State) : Action → Option Priority
  | .run =>
      match state.pc with
      | .poll (priority :: _) => if state.queue priority = [] then none else some priority
      | _ => none
  | _ => none

/-- The class has packets and has had some ever since the last receive
completed. -/
def Waiting (state : State) (priority : Priority) : Prop :=
  0 < state.left priority ∧ state.queue priority ≠ []

instance (state : State) (priority : Priority) : Decidable (state.Waiting priority) :=
  inferInstanceAs (Decidable (_ ∧ _))

/-- The step receives from no class below a waiting one. -/
def NeverSkips (state : State) (action : Action) : Prop :=
  ∀ priority ∈ state.dequeues action, ∀ higher, higher.Above priority → ¬ state.Waiting higher

instance (state : State) (action : Action) : Decidable (state.NeverSkips action) :=
  inferInstanceAs (Decidable (∀ priority ∈ state.dequeues action, _))

/-- A step that receives in a pass for a second time finds that the receive
before it left nothing in its own class and in the classes above. -/
def CleanPass (state : State) (action : Action) : Prop :=
  state.dequeues action ≠ none →
    ∀ before ∈ state.served, ∀ other, ¬ before.Above other → state.left other = 0

/-- What a pass knows about the classes it is done with: those below the class
it received from last, or all of them when it received nothing yet, were found
empty since the last receive. -/
structure Passed (left : PriorityTable Nat) (served : Option Priority)
    (rest : List Priority) : Prop where
  suffix : rest <:+ Priority.all
  servedBefore : ∀ before ∈ served, before ∉ rest
  emptied : ∀ priority, priority ∉ rest → (∀ before ∈ served, before.Above priority) →
    left priority = 0

/-- Only receives shorten a queue. -/
structure Kept (state : State) : Prop where
  left_le : ∀ priority, state.left priority ≤ (state.queue priority).length
  passed : ∀ rest ∈ state.pc.rest, Passed state.left state.served rest

theorem start_kept (receivers : PriorityTable (Channel Packet))
    (socketMap : PriorityTable (Option (List Socket))) : (start receivers socketMap).Kept :=
  ⟨fun _ => Nat.le_refl _, by simp [start, Pc.rest]⟩

theorem Kept.left_eq_zero {state : State} (kept : state.Kept) {priority : Priority}
    (empty : state.queue priority = []) : state.left priority = 0 := by
  have bound := kept.left_le priority
  rw [empty] at bound
  exact Nat.le_zero.mp bound

theorem Kept.waiting_iff {state : State} (kept : state.Kept) (priority : Priority) :
    state.Waiting priority ↔ state.left priority ≠ 0 := by
  constructor
  · intro waiting
    exact Nat.pos_iff_ne_zero.mp waiting.1
  · intro some_left
    exact ⟨Nat.pos_of_ne_zero some_left, mt kept.left_eq_zero some_left⟩

theorem Passed.skip {left : PriorityTable Nat} {served : Option Priority} {priority : Priority}
    {rest : List Priority} (passed : Passed left served (priority :: rest))
    (empty : left priority = 0) : Passed left served rest where
  suffix := (List.suffix_cons priority rest).trans passed.suffix
  servedBefore before known later := passed.servedBefore before known (List.mem_cons_of_mem _ later)
  emptied other gone below := by
    by_cases same : other = priority
    · rw [same]
      exact empty
    · exact passed.emptied other (by simp [same, gone]) below

theorem Passed.receive {left after : PriorityTable Nat} {served : Option Priority}
    {priority : Priority} {rest : List Priority}
    (passed : Passed left served (priority :: rest)) : Passed after (some priority) rest where
  suffix := (List.suffix_cons priority rest).trans passed.suffix
  servedBefore before known := by
    cases known
    rw [Priority.mem_tail_iff passed.suffix]
    exact Nat.lt_irrefl _
  emptied other gone below := by
    rw [Priority.mem_tail_iff passed.suffix] at gone
    exact absurd (below priority rfl) gone

structure Quiet (state next : State) : Prop where
  queue : next.queue = state.queue
  left : next.left = state.left
  dequeued : next.dequeued = state.dequeued

/-- What a step can do to the queues, to the history and to the classes a pass
has still to poll. -/
inductive Move (state : State) : Action → State → Prop where
  | arrive {priority : Priority} {packet : Packet} {next : State}
      (grown : next.queue = PriorityTable.set state.queue priority (state.queue priority ++ [packet]))
      (left : next.left = state.left) (dequeued : next.dequeued = state.dequeued)
      (served : next.served = state.served) (place : next.pc = state.pc) :
      Move state (.arrive priority packet) next
  | stay {action : Action} {next : State} (quiet : Quiet state next)
      (served : next.served = state.served) (place : next.pc.rest = state.pc.rest) :
      Move state action next
  | leave {action : Action} {next : State} (quiet : Quiet state next)
      (place : next.pc.rest = none) : Move state action next
  | enter {action : Action} {next : State} (quiet : Quiet state next) (served : next.served = none)
      (place : next.pc.rest = some Priority.all) : Move state action next
  | skip {action : Action} {priority : Priority} {rest : List Priority} {next : State}
      (polled : state.pc.rest = some (priority :: rest)) (empty : state.queue priority = [])
      (quiet : Quiet state next) (served : next.served = state.served)
      (place : next.pc.rest = some rest) : Move state action next
  | receive {action : Action} {priority : Priority} {rest : List Priority} {packet : Packet}
      {remaining : Channel Packet} (polled : state.pc.rest = some (priority :: rest))
      (received : state.queue priority = packet :: remaining.queue) :
      Move state action (state.receive rest priority packet remaining)

theorem recordPacket_move (state : State) {rest : List Priority} {packet : Packet}
    {event : MetricsEvent} {action : Action} (place : state.pc.rest = some rest) :
    Move state action (state.recordPacket rest packet event) := by
  unfold recordPacket
  cases sockets : state.socketMap event.priority with
  | none =>
      simp only [sockets]
      exact .stay ⟨rfl, rfl, rfl⟩ rfl place.symm
  | some listed =>
      cases listed with
      | nil =>
          simp only [sockets]
          exact .stay ⟨rfl, rfl, rfl⟩ rfl place.symm
      | cons first others =>
          simp only [sockets]
          exact .stay ⟨rfl, rfl, rfl⟩ rfl place.symm

theorem step_move {state next : State} {action : Action}
    (stepped : state.step action = some next) : Move state action next := by
  cases step_moves stepped with
  | @arrive priority packet connected =>
      refine .arrive ?_ rfl rfl rfl rfl
      funext other
      by_cases same : other = priority
      · simp [queue, Channel.send, same]
      · simp [queue, same]
  | disconnect priority =>
      refine .stay ⟨?_, rfl, rfl⟩ rfl rfl
      funext other
      by_cases same : other = priority
      · simp [queue, same]
      · simp [queue, same]
  | tick | stop | takeEvent | wouldBlock => exact .stay ⟨rfl, rfl, rfl⟩ rfl rfl
  | enter => exact .enter ⟨rfl, rfl, rfl⟩ rfl rfl
  | quit | leave | close => exact .leave ⟨rfl, rfl, rfl⟩ rfl
  | receive place received => exact .receive (place ▸ rfl) (Channel.tryRecv_ok received).1
  | skip place failed =>
      exact .skip (place ▸ rfl) (Channel.tryRecv_error failed) ⟨rfl, rfl, rfl⟩ rfl rfl
  | measure place | judge place | sent place | failed place =>
      exact .stay ⟨rfl, rfl, rfl⟩ rfl (place ▸ rfl)
  | record place room => exact recordPacket_move state (place ▸ rfl)

theorem Kept.quiet {state next : State} (kept : state.Kept) (quiet : Quiet state next)
    (passed : ∀ rest ∈ next.pc.rest, Passed state.left next.served rest) : next.Kept where
  left_le priority := by
    rw [quiet.left, quiet.queue]
    exact kept.left_le priority
  passed rest place := by
    rw [quiet.left]
    exact passed rest place

theorem step_kept {state next : State} {action : Action} (kept : state.Kept)
    (stepped : state.step action = some next) : next.Kept := by
  cases step_move stepped with
  | arrive grown left dequeued served place =>
      rename_i priority packet
      refine ⟨?_, ?_⟩
      · intro other
        rw [left, grown, PriorityTable.set_apply]
        have bound := kept.left_le other
        split
        · rename_i same
          rw [List.length_append, ← same]
          exact Nat.le_add_right_of_le bound
        · exact bound
      · intro rest here
        rw [place] at here
        rw [left, served]
        exact kept.passed rest here
  | stay quiet served place =>
      refine kept.quiet quiet ?_
      intro rest here
      rw [place] at here
      rw [served]
      exact kept.passed rest here
  | leave quiet place => exact kept.quiet quiet (by simp [place])
  | enter quiet served place =>
      refine kept.quiet quiet ?_
      intro rest here
      rw [place] at here
      cases here
      rw [served]
      exact ⟨List.suffix_refl _, by simp, by simp⟩
  | skip polled empty quiet served place =>
      refine kept.quiet quiet ?_
      intro rest here
      rw [place] at here
      cases here
      rw [served]
      exact (kept.passed _ polled).skip (kept.left_eq_zero empty)
  | receive polled received =>
      refine ⟨fun _ => Nat.le_refl _, ?_⟩
      intro rest here
      cases here
      exact (kept.passed _ polled).receive

theorem dequeues_eq_some {state : State} {action : Action} {priority : Priority}
    (receives : state.dequeues action = some priority) :
    ∃ rest, state.pc = .poll (priority :: rest) := by
  cases action <;> simp only [dequeues, reduceCtorEq] at receives
  split at receives
  · rename_i first rest place
    split at receives
    · cases receives
    · cases receives
      exact ⟨rest, place⟩
  · cases receives

/-- Of the classes above the one received from, those below the class served
before were passed empty; the others are what the guard speaks of. -/
theorem neverSkips_iff_cleanPass {state : State} {action : Action} (kept : state.Kept) :
    state.NeverSkips action ↔ state.CleanPass action := by
  cases receives : state.dequeues action with
  | none => simp [NeverSkips, CleanPass, receives]
  | some priority =>
      obtain ⟨rest, place⟩ := dequeues_eq_some receives
      have passed := kept.passed (priority :: rest) (by rw [place]; rfl)
      simp only [NeverSkips, CleanPass, receives, Option.mem_def, Option.some.injEq,
        forall_eq', kept.waiting_iff, not_not]
      have pending : ∀ other, other ∈ priority :: rest ↔ ¬ other.Above priority := by
        intro other
        rw [List.mem_cons, Priority.mem_tail_iff passed.suffix,
          ← Priority.index_injective.eq_iff, Priority.Above, Priority.Above]
        omega
      constructor
      · intro skipped _ before known other notBelow
        have above := not_not.mp (mt (pending before).mpr (passed.servedBefore before known))
        refine skipped other (Nat.lt_of_le_of_lt ?_ above)
        exact Nat.not_lt.mp notBelow
      · intro clean higher above
        by_cases below : ∀ before ∈ state.served, before.Above higher
        · exact passed.emptied higher (by rw [pending]; exact not_not.mpr above) below
        · obtain ⟨before, known, notBelow⟩ := not_forall₂.mp below
          exact clean (by simp) before known higher notBelow

end State

/-- From any contents of the queues, a run never receives from a class below one
that has been waiting since the receive before, exactly when each pass that
receives repeatedly found the earlier classes with no packet left. -/
theorem neverSkips_iff_clean_passes (receivers : PriorityTable (Channel Packet))
    (socketMap : PriorityTable (Option (List Socket))) (actions : List Action) :
    TransitionSystem.Along State.step State.NeverSkips (State.start receivers socketMap)
        actions ↔
      TransitionSystem.Along State.step State.CleanPass (State.start receivers socketMap)
        actions :=
  TransitionSystem.along_iff State.step_kept State.neverSkips_iff_cleanPass
    (State.start_kept receivers socketMap) actions

end EdfPipeline.Egress
