import EdfPipeline.MultiWorker.Books

/-!
# The average processing time

An observation moves the average of its class an eighth of the way and rounds
down. From above the average comes down to a constant processing time; from below
the rounding stops it at most seven nanoseconds short.
-/

set_option autoImplicit false

namespace EdfPipeline.MultiWorker

open TransitionSystem

/-- The average before an observation, which is taken for 1 if it is 0, and after it. -/
def movedAverage (previous observation : Nat) : Nat := (max previous 1 * 7 + observation) / 8

/-- How far the average is from where a constant observation leaves it. -/
def unsettled (constant average : Nat) : Nat := max (average - constant) (constant - 7 - average)

theorem movedAverage_bounds {low high previous observation : Nat} (positive : 1 ≤ previous)
    (estimate : low ≤ previous ∧ previous ≤ high) (observed : low ≤ observation ∧ observation ≤ high) :
    low ≤ movedAverage previous observation ∧ movedAverage previous observation ≤ high := by
  unfold movedAverage
  omega

theorem unsettled_eq_zero {constant average : Nat} :
    unsettled constant average = 0 ↔ constant - 7 ≤ average ∧ average ≤ constant := by
  unfold unsettled
  omega

/-- Each observation brings the average nearer by at least a nanosecond. -/
theorem unsettled_movedAverage {constant previous : Nat} (positive : 1 ≤ previous) :
    unsettled constant (movedAverage previous constant) ≤ unsettled constant previous - 1 := by
  have moved : max previous 1 = previous := Nat.max_eq_left positive
  unfold unsettled movedAverage
  rw [moved]
  omega

theorem word_bounds {high previous observation : Nat} (small : high < 2 ^ 61)
    (estimate : previous ≤ high) (observed : observation ≤ high) :
    observation < wordBound ∧ previous * 7 < wordBound ∧ previous * 7 + observation < wordBound := by
  have word : wordBound = 2 ^ 64 := rfl
  omega

namespace AdaptiveController

/-- What a worker tells the controller about a packet: its class and its processing time. -/
abbrev Observation := Priority × Duration

def observe (controller : AdaptiveController) (observation : Observation) : AdaptiveController :=
  controller.observeProcessingTime observation.1 observation.2

def observeAll (controller : AdaptiveController) (observations : List Observation) :
    AdaptiveController :=
  observations.foldl observe controller

def observing (controller : AdaptiveController) (observation : Observation) :
    Option AdaptiveController :=
  some (controller.observe observation)

/-- The observation is a 64-bit number, and neither the product nor the sum overflows. -/
structure FitsWord (controller : AdaptiveController) (observation : Observation) : Prop where
  word : observation.2 < wordBound
  product : max (controller.processingEmaNs observation.1) 1 * 7 < wordBound
  sum : max (controller.processingEmaNs observation.1) 1 * 7 + observation.2 < wordBound

structure Between (priority : Priority) (low high : Nat) (controller : AdaptiveController) : Prop where
  low : low ≤ controller.processingEmaNs priority
  high : controller.processingEmaNs priority ≤ high

/-- The average is at most seven nanoseconds below the constant processing time. -/
structure Settled (priority : Priority) (constant : Nat) (controller : AdaptiveController) : Prop where
  stored : max 1 (constant - 7) ≤ controller.processingEmaNs priority ∧
    controller.processingEmaNs priority ≤ constant
  read : constant - 7 ≤ controller.averageProcessingNs priority ∧
    controller.averageProcessingNs priority ≤ constant

theorem fitsWord_of_bounds {controller : AdaptiveController} {observation : Observation} {high : Nat}
    (small : high < 2 ^ 61) (positive : 1 ≤ controller.processingEmaNs observation.1)
    (estimate : controller.processingEmaNs observation.1 ≤ high) (observed : observation.2 ≤ high) :
    controller.FitsWord observation := by
  obtain ⟨word, product, sum⟩ := word_bounds small estimate observed
  rw [← Nat.max_eq_left positive] at product sum
  exact ⟨word, product, sum⟩

/-- Without overflow the new average is the exact one. -/
theorem FitsWord.observe {controller : AdaptiveController} {observation : Observation}
    (fits : controller.FitsWord observation) :
    (controller.observe observation).processingEmaNs observation.1 =
      movedAverage (controller.processingEmaNs observation.1) observation.2 := by
  change (controller.processingEmaNs.set observation.1 _) observation.1 = _
  rw [PriorityTable.set_self, Nat.mod_eq_of_lt fits.word, Nat.mod_eq_of_lt fits.sum]
  rfl

theorem observe_other (controller : AdaptiveController) {observation : Observation}
    {priority : Priority} (other : priority ≠ observation.1) :
    (controller.observe observation).processingEmaNs priority = controller.processingEmaNs priority :=
  PriorityTable.set_other other

theorem observeAll_append (controller : AdaptiveController) (earlier later : List Observation) :
    controller.observeAll (earlier ++ later) = (controller.observeAll earlier).observeAll later :=
  List.foldl_append

/-- Only the averages have a part in the averages. -/
theorem observeAll_averages {controller other : AdaptiveController}
    (same : controller.processingEmaNs = other.processingEmaNs) (observations : List Observation) :
    (controller.observeAll observations).processingEmaNs =
      (other.observeAll observations).processingEmaNs := by
  induction observations generalizing controller other with
  | nil => exact same
  | cons observation rest ih =>
      refine ih ?_
      simp only [observe, observeProcessingTime, same]

/-- Observations of this class lie in these bounds. -/
def Within (priority : Priority) (low high : Nat) (observation : Observation) : Prop :=
  observation.1 = priority → low ≤ observation.2 ∧ observation.2 ≤ high

instance decidableWithin (priority : Priority) (low high : Nat) (observation : Observation) :
    Decidable (Within priority low high observation) :=
  inferInstanceAs (Decidable (_ → _ ∧ _))

section Bounds

variable {priority : Priority} {low high : Nat} {controller : AdaptiveController}

theorem Between.fitsWord (between : Between priority low high controller) (positive : 1 ≤ low)
    (small : high < 2 ^ 61) {observation : Observation}
    (within : Within priority low high observation) (here : observation.1 = priority) :
    controller.FitsWord observation := by
  have bounds := within here
  subst here
  exact fitsWord_of_bounds small (positive.trans between.low) between.high bounds.2

theorem Between.observe (between : Between priority low high controller) (positive : 1 ≤ low)
    (small : high < 2 ^ 61) {observation : Observation}
    (within : Within priority low high observation) :
    Between priority low high (controller.observe observation) := by
  by_cases here : observation.1 = priority
  · have fits := between.fitsWord positive small within here
    have bounds := within here
    subst here
    have moved := movedAverage_bounds (positive.trans between.low) ⟨between.low, between.high⟩ bounds
    rw [← fits.observe] at moved
    exact ⟨moved.1, moved.2⟩
  · have same := controller.observe_other (Ne.symm here)
    exact ⟨same ▸ between.low, same ▸ between.high⟩

theorem Between.observeAll (between : Between priority low high controller) (positive : 1 ≤ low)
    (small : high < 2 ^ 61) {observations : List Observation}
    (within : ∀ observation ∈ observations, Within priority low high observation) :
    Between priority low high (controller.observeAll observations) := by
  induction observations generalizing controller with
  | nil => exact between
  | cons observation rest ih =>
      have first := between.observe positive small (within observation List.mem_cons_self)
      exact ih first fun other member => within other (List.mem_cons_of_mem _ member)

/-- Each observation of the class brings the average nearer to a constant processing time. -/
theorem Between.unsettled (between : Between priority low high controller) (positive : 1 ≤ low)
    (small : high < 2 ^ 61) {constant : Nat} {observations : List Observation}
    (within : ∀ observation ∈ observations, Within priority low high observation)
    (settles : ∀ observation ∈ observations, observation.1 = priority → observation.2 = constant) :
    unsettled constant ((controller.observeAll observations).processingEmaNs priority) ≤
      unsettled constant (controller.processingEmaNs priority) -
        observations.countP (·.1 = priority) := by
  induction observations generalizing controller with
  | nil => exact Nat.le_refl _
  | cons observation rest ih =>
      have inside := within observation List.mem_cons_self
      have later := ih (between.observe positive small inside)
        (fun other member => within other (List.mem_cons_of_mem _ member))
        (fun other member => settles other (List.mem_cons_of_mem _ member))
      refine later.trans ?_
      by_cases here : observation.1 = priority
      · have exact_step := (between.fitsWord positive small inside here).observe
        have duration := settles observation List.mem_cons_self here
        subst here
        have nearer : unsettled constant (movedAverage (controller.processingEmaNs observation.1) constant) ≤
            unsettled constant (controller.processingEmaNs observation.1) - 1 :=
          unsettled_movedAverage (positive.trans between.low)
        rw [exact_step, duration, List.countP_cons_of_pos (by simp)]
        omega
      · rw [controller.observe_other (Ne.symm here), List.countP_cons_of_neg (by simpa using here)]

end Bounds

/-- Whatever the average was, so many observations of a constant processing time settle it. -/
theorem Between.settled {priority : Priority} {low high constant : Nat}
    {controller : AdaptiveController} (between : Between priority low high controller)
    (positive : 1 ≤ low) (small : high < 2 ^ 61) {observations : List Observation}
    (within : ∀ observation ∈ observations, Within priority low high observation)
    (settles : ∀ observation ∈ observations, observation.1 = priority → observation.2 = constant)
    (long : high ≤ observations.countP (·.1 = priority)) :
    Settled priority constant (controller.observeAll observations) := by
  have reached := between.observeAll positive small within
  have nearer := between.unsettled positive small within settles
  have known : constant ≤ high := by
    have seen : 0 < observations.countP (·.1 = priority) :=
      (positive.trans (between.low.trans between.high)).trans long
    obtain ⟨observation, member, here⟩ := List.countP_pos_iff.mp seen
    have class_eq : observation.1 = priority := of_decide_eq_true here
    rw [← settles observation member class_eq]
    exact (within observation member class_eq).2
  have start : MultiWorker.unsettled constant (controller.processingEmaNs priority) ≤ high := by
    have estimate := between.high
    unfold MultiWorker.unsettled
    omega
  have rest : MultiWorker.unsettled constant
      ((controller.observeAll observations).processingEmaNs priority) = 0 := by
    omega
  obtain ⟨above, below⟩ := unsettled_eq_zero.mp rest
  have least : 1 ≤ (controller.observeAll observations).processingEmaNs priority :=
    positive.trans reached.low
  have read : (controller.observeAll observations).averageProcessingNs priority =
      (controller.observeAll observations).processingEmaNs priority := Nat.max_eq_left least
  exact ⟨⟨Nat.max_le.mpr ⟨least, above⟩, below⟩, read ▸ ⟨above, below⟩⟩

/-- The average of a class stays between the bounds of its observations and its first
value, and settles at a constant processing time. -/
theorem average_bounded_and_settles {controller : AdaptiveController} {priority : Priority}
    {low high : Nat} (estimate : 1 ≤ controller.processingEmaNs priority) (positive : 1 ≤ low)
    (small : max (controller.processingEmaNs priority) high < 2 ^ 61)
    {observations : List Observation}
    (within : ∀ observation ∈ observations, Within priority low high observation) :
    Along observing (fun reached observation => observation.1 = priority → reached.FitsWord observation)
        controller observations ∧
      Throughout observing (fun reached =>
        Between priority (min (controller.processingEmaNs priority) low)
          (max (controller.processingEmaNs priority) high) reached ∧
        reached.averageProcessingNs priority ≠ 0) controller observations ∧
      ∀ earlier later constant, observations = earlier ++ later →
        (∀ observation ∈ later, observation.1 = priority → observation.2 = constant) →
        max (controller.processingEmaNs priority) high ≤ later.countP (·.1 = priority) →
        Settled priority constant (controller.observeAll observations) := by
  have least : 1 ≤ min (controller.processingEmaNs priority) low := Nat.le_min.mpr ⟨estimate, positive⟩
  have start : Between priority (min (controller.processingEmaNs priority) low)
      (max (controller.processingEmaNs priority) high) controller :=
    ⟨Nat.min_le_left _ _, Nat.le_max_left _ _⟩
  have wider : ∀ observation ∈ observations,
      Within priority (min (controller.processingEmaNs priority) low)
        (max (controller.processingEmaNs priority) high) observation := by
    intro observation member here
    have bounds := within observation member here
    exact ⟨(Nat.min_le_right _ _).trans bounds.1, bounds.2.trans (Nat.le_max_right _ _)⟩
  have guarded : Along observing (fun _ => Within priority (min (controller.processingEmaNs priority) low)
      (max (controller.processingEmaNs priority) high)) controller observations :=
    along_of_forall wider controller
  have preserved {reached next : AdaptiveController} {observation : Observation}
      (between : Between priority (min (controller.processingEmaNs priority) low)
        (max (controller.processingEmaNs priority) high) reached)
      (inside : Within priority (min (controller.processingEmaNs priority) low)
        (max (controller.processingEmaNs priority) high) observation)
      (stepped : observing reached observation = some next) :
      Between priority (min (controller.processingEmaNs priority) low)
        (max (controller.processingEmaNs priority) high) next := by
    cases stepped
    exact between.observe least small inside
  refine ⟨?_, ?_, ?_⟩
  · exact along_guarded preserved (fun between inside => between.fitsWord least small inside) start guarded
  · refine throughout_guarded preserved (fun between => ⟨between, ?_⟩) start guarded
    exact Nat.one_le_iff_ne_zero.mp (Nat.le_max_right _ 1)
  · intro earlier later constant split settles long
    subst split
    rw [observeAll_append]
    refine Between.settled (start.observeAll least small ?_) least small ?_ settles long
    · intro observation member
      exact wider observation (List.mem_append_left _ member)
    · intro observation member
      exact wider observation (List.mem_append_right _ member)

/-- A class with a first average of 20 and packets of 9 nanoseconds, among them one of
another class. -/
def shortPackets : List Observation := (.high, 3) :: List.replicate 20 (.low, 9)

theorem shortPackets_settle :
    Settled .low 9 (AdaptiveController.observeAll
        { AdaptiveController.new with processingEmaNs := fun _ => 20 } shortPackets) ∧
      (AdaptiveController.observeAll
        { AdaptiveController.new with processingEmaNs := fun _ => 20 } shortPackets).averageProcessingNs
          .low = 9 := by
  have within : ∀ observation ∈ shortPackets, Within .low 9 20 observation := by decide
  have settles : ∀ observation ∈ shortPackets, observation.1 = .low → observation.2 = 9 := by decide
  refine ⟨?_, by decide +kernel⟩
  exact (average_bounded_and_settles (by decide) (by decide) (by decide) within).2.2 [] _ 9 rfl
    settles (by decide)

end AdaptiveController

/-! ## The averages of a run -/

namespace State

open AdaptiveController

/-- What a worker that has finished a packet tells the controller. -/
def observation (state : State) : Action → Option Observation
  | .run id =>
      match (state.workers id).pc with
      | .busy scheduled start =>
          let processingTime := processingDuration scheduled.workItem.packet
          if state.clock - start < processingTime then none
          else some (scheduled.priority, processingTime)
      | _ => none
  | _ => none

theorem Moves.controller {state next : State} {id : WorkerId} (move : Moves state id next)
    (unfinished : ∀ scheduled start, (state.workers id).pc ≠ .busy scheduled start) :
    next.controller = state.controller := by
  cases move with
  | observe scheduled start place => exact absurd place (unfinished scheduled start)
  | push =>
      unfold State.push
      split <;> rfl
  | displace =>
      unfold State.displace
      split <;> rfl
  | readTotalLimit | readPriorityLimit | storeBacklog | goto | spin | receive | prepare => rfl

theorem step_average {state next : State} {action : Action} (stepped : state.step action = some next) :
    next.controller.processingEmaNs =
      (state.controller.observeAll (state.observation action).toList).processingEmaNs := by
  cases action with
  | arrive | disconnect | tick =>
      cases stepped
      rfl
  | store store =>
      simp only [step] at stepped
      split at stepped <;> cases stepped
      cases store <;> rfl
  | pop id item =>
      simp only [step, popWorker] at stepped
      split at stepped <;> cases stepped
      rfl
  | complete id room =>
      simp only [step, completeWorker] at stepped
      split at stepped <;> cases stepped
      rfl
  | run id =>
      cases place : (state.workers id).pc with
      | busy scheduled start =>
          simp only [step, runWorker, place] at stepped
          simp only [observation, place]
          split at stepped <;> cases stepped <;> rename_i finished
          · rw [if_pos finished]
            rfl
          · rw [if_neg finished]
            rfl
      | _ =>
          have same := (runWorker_moves stepped).controller (by simp [place])
          simp only [observation, place]
          rw [same]
          rfl

/-- The averages are those of what the workers observed, in this order. -/
def AveragesObserved (history : State × Past State Action) : Prop :=
  history.1.controller.processingEmaNs =
    (AdaptiveController.new.observeAll (observed observation history.2)).processingEmaNs

theorem step_averagesObserved {history next : State × Past State Action} {action : Action}
    (averages : AveragesObserved history) (stepped : recorded step history action = some next) :
    AveragesObserved next := by
  obtain ⟨state, past⟩ := history
  obtain ⟨after, later⟩ := next
  obtain ⟨moved, rfl⟩ := recorded_eq_some.mp stepped
  rw [AveragesObserved, step_average moved, observed_append, observeAll_append]
  exact observeAll_averages averages _

theorem averages_observed (actions : List Action) :
    Throughout (recorded step) AveragesObserved (initial, []) actions := by
  have start : AveragesObserved (initial, []) := rfl
  exact throughout_invariant step_averagesObserved id start actions

end State

end EdfPipeline.MultiWorker
