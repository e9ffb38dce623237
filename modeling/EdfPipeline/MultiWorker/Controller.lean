import EdfPipeline.Packet
import Mathlib.Algebra.GroupWithZero.Nat
import Mathlib.Data.Fin.Basic

/-!
# Adaptive controller

Quotas, guard parameters and processing-time averages shared by the workers.
Every field is an atomic, so `autobalance_loop` publishes its results one store
at a time and a worker may read values of two different passes.
-/

set_option autoImplicit false

namespace EdfPipeline.MultiWorker

abbrev WorkerId : Type := Fin 3

instance workerCount_ne_zero : NeZero 3 := ⟨by decide⟩

/-- The classes each worker may process. -/
def workerAssignments : WorkerId → List Priority
  | 0 => [.high]
  | 1 => [.high, .medium]
  | 2 => [.high, .medium, .low, .bestEffort]

structure AdaptiveController where
  workerTotalLimits : WorkerId → Nat
  workerPriorityLimits : WorkerId → PriorityTable Nat
  guardSliceUs : Nat
  guardThresholdUs : PriorityTable Nat
  processingEmaNs : PriorityTable Nat

inductive Store where
  | totalLimit (worker : WorkerId) (value : Nat)
  | priorityLimit (worker : WorkerId) (priority : Priority) (value : Nat)
  | guardSlice (micros : Nat)
  | guardThreshold (priority : Priority) (micros : Nat)
  deriving DecidableEq, Repr

def Store.Fits : Store → Prop
  | .totalLimit _ value | .priorityLimit _ _ value => value < wordBound
  | .guardSlice micros | .guardThreshold _ micros => micros < wordBound

instance (store : Store) : Decidable store.Fits := by
  cases store <;> exact inferInstanceAs (Decidable (_ < _))

namespace AdaptiveController

def new : AdaptiveController where
  workerTotalLimits := fun
    | 0 => 16
    | 1 => 64
    | 2 => 256
  workerPriorityLimits := fun
    | 0 => fun priority => if priority = .high then 16 else 0
    | 1 => fun
      | .high => 4
      | .medium => 60
      | _ => 0
    | 2 => fun
      | .high => 4
      | .medium => 60
      | .low => 64
      | .bestEffort => 128
  guardSliceUs := 10
  guardThresholdUs := fun
    | .medium => 80
    | .low => 80
    | _ => 0
  processingEmaNs := fun
    | .high => 100000
    | .medium => 120000
    | .low => 200000
    | .bestEffort => 200000

def totalLimit (controller : AdaptiveController) (worker : WorkerId) : Nat :=
  max (controller.workerTotalLimits worker) 1

def setTotalLimit (controller : AdaptiveController) (worker : WorkerId) (value : Nat) :
    AdaptiveController :=
  { controller with
    workerTotalLimits := Function.update controller.workerTotalLimits worker (max value 1) }

def setPriorityLimit (controller : AdaptiveController) (worker : WorkerId) (priority : Priority)
    (value : Nat) : AdaptiveController :=
  { controller with
    workerPriorityLimits := Function.update controller.workerPriorityLimits worker
      ((controller.workerPriorityLimits worker).set priority value) }

def guardSlice (controller : AdaptiveController) : Duration :=
  .fromMicros (max controller.guardSliceUs 1)

def setGuardSliceUs (controller : AdaptiveController) (micros : Nat) : AdaptiveController :=
  { controller with guardSliceUs := max micros 1 }

def guardThreshold (controller : AdaptiveController) (priority : Priority)
    (latencyBudget : Duration) : Option Duration :=
  match priority with
  | .high | .bestEffort => none
  | _ =>
      let micros := controller.guardThresholdUs priority
      if micros = 0 then none else some (min (.fromMicros micros) latencyBudget)

def setGuardThresholdUs (controller : AdaptiveController) (priority : Priority) (micros : Nat) :
    AdaptiveController :=
  { controller with guardThresholdUs := controller.guardThresholdUs.set priority micros }

/-- The average moves by one eighth towards the observation, in wrapping 64-bit
arithmetic. -/
def observeProcessingTime (controller : AdaptiveController) (priority : Priority)
    (duration : Duration) : AdaptiveController :=
  let previous := max (controller.processingEmaNs priority) 1
  let updated := ((previous * 7 + duration % wordBound) % wordBound) / 8
  { controller with processingEmaNs := controller.processingEmaNs.set priority updated }

def averageProcessingNs (controller : AdaptiveController) (priority : Priority) : Nat :=
  max (controller.processingEmaNs priority) 1

def apply (controller : AdaptiveController) : Store → AdaptiveController
  | .totalLimit worker value => controller.setTotalLimit worker value
  | .priorityLimit worker priority value => controller.setPriorityLimit worker priority value
  | .guardSlice micros => controller.setGuardSliceUs micros
  | .guardThreshold priority micros => controller.setGuardThresholdUs priority micros

end AdaptiveController

/-! ## One pass of the balancer -/

/-- The quotas a pass of `autobalance_loop` has computed so far. -/
structure Plan where
  newTotals : WorkerId → Nat
  newLimits : WorkerId → PriorityTable Nat
  guardThresholds : List (Priority × Nat)
  guardSliceCandidates : List (Priority × Nat)

namespace Plan

def empty : Plan where
  newTotals := fun _ => 0
  newLimits := fun _ _ => 0
  guardThresholds := []
  guardSliceCandidates := []

def grant (plan : Plan) (worker : WorkerId) (priority : Priority) (value : Nat) : Plan :=
  { plan with
    newLimits := Function.update plan.newLimits worker
      ((plan.newLimits worker).set priority value)
    newTotals := Function.update plan.newTotals worker (plan.newTotals worker + value) }

def guarding (plan : Plan) (priority : Priority) (threshold candidate : Nat) : Plan :=
  { plan with
    guardThresholds := plan.guardThresholds ++ [(priority, threshold)]
    guardSliceCandidates := plan.guardSliceCandidates ++ [(priority, candidate)] }

end Plan

/-- `clamp(0.9 × budget / average, 1, 512)`, rounded to the nearest integer, in
exact arithmetic. -/
def capacity (budgetNs avgNs : Nat) : Nat :=
  min 512 (max 1 ((9 * budgetNs + 5 * avgNs) / (10 * avgNs)))

def targetDepth (capacity actualDepth : Nat) : Nat :=
  max capacity (max (min actualDepth (capacity * 2)) 1)

def highPrimaryMax : Nat := 64

def highSpillMax : Nat := 16

def mediumW1Max : Nat := 160

def mediumW2Max : Nat := 160

def lowMax : Nat := 192

def bestEffortMax : Nat := 128

/-- Worker 0 gets the bulk of High, workers 1 and 2 one packet each when there
is enough to share. -/
def Plan.distributeHigh (plan : Plan) (target : Nat) : Plan :=
  let remaining := max target 1
  let (alloc1, alloc2, remaining) :=
    if remaining ≥ 3 then (1, 1, remaining - 2)
    else if remaining = 2 then (1, 0, remaining - 1)
    else (0, 0, remaining)
  ((plan.grant 0 .high (max (min remaining highPrimaryMax) 1)).grant 1 .high
    (min alloc1 highSpillMax)).grant 2 .high (min alloc2 highSpillMax)

def Plan.distributeMedium (plan : Plan) (targetDepth : Nat) : Plan :=
  let target := max targetDepth 1
  let w1 := min target mediumW1Max
  let w2 := min (target - w1) mediumW2Max
  if target > 1 ∧ w2 = 0 then
    (plan.grant 1 .medium (w1 - 1)).grant 2 .medium 1
  else
    (plan.grant 1 .medium w1).grant 2 .medium w2

def Plan.distributeLow (plan : Plan) (targetDepth : Nat) : Plan :=
  plan.grant 2 .low (min (max targetDepth 1) lowMax)

/-- `min(2 × average, budget)` in microseconds. -/
def guardMicros (budgetNs avgNs : Nat) : Nat :=
  min (avgNs / 1000 * 2) (max (budgetNs / 1000) 1)

/-- The body of the balancer's loop over the classes. `depth` is the backlog of
the class summed over the workers' counters. -/
def Plan.balance (budgetNs avgNs depth : PriorityTable Nat) (plan : Plan) (priority : Priority) :
    Plan :=
  let budget := budgetNs priority
  let avg := avgNs priority
  let target := targetDepth (capacity budget avg) (depth priority)
  let guard := guardMicros budget avg
  if budget = 0 ∨ avg = 0 then plan
  else
    match priority with
    | .high => (plan.distributeHigh target).guarding .high 0 guard
    | .medium => (plan.distributeMedium target).guarding .medium (min guard 80) (min guard 80)
    | .low => (plan.distributeLow target).guarding .low (min guard 80) (min guard 80)
    | .bestEffort => plan

def minTotal : WorkerId → Nat
  | 0 => 4
  | 1 => 16
  | 2 => 64

/-- The stores of one pass of `autobalance_loop`, in the order they are made. -/
def autobalance (budgetNs avgNs depth : PriorityTable Nat) : List Store :=
  let adaptive := Priority.all.foldl (Plan.balance budgetNs avgNs depth) .empty
  let plan := adaptive.grant 2 .bestEffort bestEffortMax
  let thresholds := plan.guardThresholds.map fun entry => Store.guardThreshold entry.1 entry.2
  let quotas := (List.finRange 3).flatMap fun worker =>
    .totalLimit worker (max (plan.newTotals worker) (minTotal worker)) ::
      Priority.all.map fun priority => .priorityLimit worker priority (plan.newLimits worker priority)
  let slices := ((plan.guardSliceCandidates.map Prod.snd).min?).toList.map fun best =>
    .guardSlice (min (max best 5) 50)
  thresholds ++ quotas ++ slices

end EdfPipeline.MultiWorker
