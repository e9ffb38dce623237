import EdfPipeline.MultiWorker.Controller
import EdfPipeline.Library.Ledger
import Mathlib.Algebra.BigOperators.Fin
import Mathlib.Algebra.Order.Round
import Mathlib.Data.Rat.Floor
import Mathlib.Tactic.FieldSimp
import Mathlib.Tactic.FinCases
import Mathlib.Tactic.NormNum

/-!
# What a pass of the balancer publishes

`autobalance_loop` turns latency budgets, processing-time averages and backlogs
into quotas. No split loses or invents a slot, every class keeps a quota on a
worker that may process it, and the total limits cover the quotas.
-/

set_option autoImplicit false

namespace EdfPipeline.MultiWorker

/-! ## Capacity and target -/

/-- `round(clamp(0.9 × budget / average, 1, 512))` over the rationals. -/
def idealCapacity (budgetNs avgNs : Nat) : Nat :=
  (round (max 1 (min 512 (9 / 10 * budgetNs / avgNs : ℚ)))).toNat

/-- The backlog raises the target to at most twice the capacity. -/
def idealTarget (budgetNs avgNs depth : Nat) : Nat :=
  max (idealCapacity budgetNs avgNs) (min depth (2 * idealCapacity budgetNs avgNs))

theorem floor_half_up (budgetNs : Nat) {avgNs : Nat} (positive : 0 < avgNs) :
    ⌊(9 / 10 * budgetNs / avgNs : ℚ) + 1 / 2⌋ = ((9 * budgetNs + 5 * avgNs) / (10 * avgNs) : Nat) := by
  have nonzero : (avgNs : ℚ) ≠ 0 := by exact_mod_cast positive.ne'
  have quotient : (9 / 10 * budgetNs / avgNs : ℚ) + 1 / 2 =
      ((9 * budgetNs + 5 * avgNs : Nat) : ℚ) / ((10 * avgNs : Nat) : ℚ) := by
    push_cast
    field_simp
    ring
  rw [quotient]
  exact Rat.floor_natCast_div_natCast _ _

/-- The integer arithmetic of the pass rounds as the rationals do. -/
theorem capacity_eq_idealCapacity (budgetNs : Nat) {avgNs : Nat} (positive : 0 < avgNs) :
    capacity budgetNs avgNs = idealCapacity budgetNs avgNs := by
  have monotone : Monotone (fun value : ℚ => ⌊value + 1 / 2⌋) :=
    fun _ _ below => Int.floor_mono (by gcongr)
  have least : ⌊(1 : ℚ) + 1 / 2⌋ = 1 := by norm_num
  have most : ⌊(512 : ℚ) + 1 / 2⌋ = 512 := by norm_num
  have rounded : round (max 1 (min 512 (9 / 10 * budgetNs / avgNs : ℚ))) =
      max 1 (min 512 (((9 * budgetNs + 5 * avgNs) / (10 * avgNs) : Nat) : Int)) := by
    calc round (max 1 (min 512 (9 / 10 * budgetNs / avgNs : ℚ)))
        = ⌊max 1 (min 512 (9 / 10 * budgetNs / avgNs : ℚ)) + 1 / 2⌋ := round_eq _
      _ = max ⌊(1 : ℚ) + 1 / 2⌋
            (min ⌊(512 : ℚ) + 1 / 2⌋ ⌊(9 / 10 * budgetNs / avgNs : ℚ) + 1 / 2⌋) := by
          rw [monotone.map_max, monotone.map_min]
      _ = _ := by rw [least, most, floor_half_up budgetNs positive]
  rw [idealCapacity, rounded]
  unfold capacity
  omega

theorem capacity_pos (budgetNs avgNs : Nat) : 1 ≤ capacity budgetNs avgNs := by
  unfold capacity
  omega

theorem targetDepth_eq_idealTarget (budgetNs depth : Nat) {avgNs : Nat} (positive : 0 < avgNs) :
    targetDepth (capacity budgetNs avgNs) depth = idealTarget budgetNs avgNs depth := by
  have least := capacity_pos budgetNs avgNs
  rw [idealTarget, ← capacity_eq_idealCapacity budgetNs positive]
  unfold targetDepth
  omega

/-! ## Splitting a target over the workers -/

namespace Plan

/-- Each worker's new total is the sum of its new quotas. -/
def Summed (plan : Plan) : Prop :=
  ∀ worker, plan.newTotals worker = ∑ priority, plan.newLimits worker priority

theorem empty_summed : Plan.empty.Summed := fun _ => by simp [empty]

theorem grant_newLimits (plan : Plan) (worker other : WorkerId) (priority asked : Priority)
    (value : Nat) :
    (plan.grant worker priority value).newLimits other asked =
      if other = worker ∧ asked = priority then value else plan.newLimits other asked := by
  by_cases here : other = worker
  · subst here
    simp [grant, PriorityTable.set_apply]
  · simp [grant, here]

/-- A class that has no quota on the worker yet can be granted one. -/
theorem Summed.grant {plan : Plan} (summed : plan.Summed) {worker : WorkerId} {priority : Priority}
    (value : Nat) (fresh : plan.newLimits worker priority = 0) :
    (plan.grant worker priority value).Summed := by
  intro other
  by_cases here : other = worker
  · subst here
    have total := Ledger.sum_update id (plan.newLimits other) priority value
    simp only [id_eq, fresh, add_zero] at total
    simp [Plan.grant, PriorityTable.set, total, summed other]
  · simp [Plan.grant, here, summed other]

/-- `after` gives `priority` exactly `slots`, on workers that may process it, and
every other class what `before` gave it. -/
structure Splits (before after : Plan) (priority : Priority) (slots : Nat) : Prop where
  others : ∀ worker other, other ≠ priority →
    after.newLimits worker other = before.newLimits worker other
  assigned : ∀ worker, after.newLimits worker priority ≠ 0 → priority ∈ workerAssignments worker
  slots : ∑ worker, after.newLimits worker priority = slots
  summed : after.Summed

def Fresh (plan : Plan) (priority : Priority) : Prop := ∀ worker, plan.newLimits worker priority = 0

/-- The shares of the workers are what `after` gives the class. -/
theorem splits_of_shares {plan after : Plan} {priority : Priority} (summed : after.Summed)
    (share : WorkerId → Nat)
    (eligible : ∀ worker, share worker ≠ 0 → priority ∈ workerAssignments worker)
    (granted : ∀ worker other, after.newLimits worker other =
      if other = priority then share worker else plan.newLimits worker other) :
    Splits plan after priority (∑ worker, share worker) where
  others worker other different := by rw [granted, if_neg different]
  assigned worker := by
    rw [granted, if_pos rfl]
    exact eligible worker
  slots := Finset.sum_congr rfl fun worker _ => by rw [granted, if_pos rfl]
  summed := summed

def highShare (target : Nat) : WorkerId → Nat
  | 0 => min (max (target - 2) 1) highPrimaryMax
  | 1 => if target ≥ 2 then 1 else 0
  | 2 => if target ≥ 3 then 1 else 0

theorem distributeHigh_eq (plan : Plan) {target : Nat} (positive : 1 ≤ target) :
    plan.distributeHigh target =
      ((plan.grant 0 .high (highShare target 0)).grant 1 .high (highShare target 1)).grant 2 .high
        (highShare target 2) := by
  unfold distributeHigh highShare highPrimaryMax highSpillMax
  by_cases many : target ≥ 3
  · have two : target ≥ 2 := by omega
    have rest : max (min (max target 1 - 2) 64) 1 = min (max (target - 2) 1) 64 := by omega
    simp [many, two, rest]
  · by_cases two : target = 2
    · subst two
      simp
    · have one : target = 1 := by omega
      subst one
      simp

theorem distributeHigh_splits {plan : Plan} (summed : plan.Summed) (fresh : plan.Fresh .high)
    {target : Nat} (positive : 1 ≤ target) :
    Splits plan (plan.distributeHigh target) .high (min target 66) := by
  have total : ∑ worker, highShare target worker = min target 66 := by
    simp only [Fin.sum_univ_three, highShare, highPrimaryMax]
    split <;> split <;> omega
  rw [← total, distributeHigh_eq plan positive]
  apply splits_of_shares
  · apply Summed.grant
    · apply Summed.grant
      · exact summed.grant _ (fresh 0)
      · simp [grant_newLimits, fresh 1]
    · simp [grant_newLimits, fresh 2]
  · intro worker _
    fin_cases worker <;> simp [workerAssignments]
  · intro worker other
    simp only [grant_newLimits]
    fin_cases worker <;> simp

def mediumShare (target : Nat) : WorkerId → Nat
  | 0 => 0
  | 1 => if 1 < target ∧ target ≤ mediumW1Max then target - 1 else min target mediumW1Max
  | 2 => if 1 < target ∧ target ≤ mediumW1Max then 1
      else min (target - mediumW1Max) mediumW2Max

theorem distributeMedium_eq (plan : Plan) {target : Nat} (positive : 1 ≤ target) :
    plan.distributeMedium target =
      (plan.grant 1 .medium (mediumShare target 1)).grant 2 .medium (mediumShare target 2) := by
  have least : max target 1 = target := by omega
  unfold distributeMedium mediumShare mediumW1Max mediumW2Max
  simp only [least]
  by_cases taken : 1 < target ∧ target ≤ 160
  · have alone : target > 1 ∧ min (target - min target 160) 160 = 0 := by omega
    have whole : min target 160 = target := by omega
    rw [if_pos alone, if_pos taken, if_pos taken, whole]
  · have spill : ¬ (target > 1 ∧ min (target - min target 160) 160 = 0) := by omega
    have rest : target - min target 160 = target - 160 := by omega
    rw [if_neg spill, if_neg taken, if_neg taken, rest]

theorem distributeMedium_splits {plan : Plan} (summed : plan.Summed) (fresh : plan.Fresh .medium)
    {target : Nat} (positive : 1 ≤ target) :
    Splits plan (plan.distributeMedium target) .medium (min target 320) := by
  have total : ∑ worker, mediumShare target worker = min target 320 := by
    have first : mediumW1Max = 160 := rfl
    have second : mediumW2Max = 160 := rfl
    simp only [Fin.sum_univ_three, mediumShare]
    by_cases taken : 1 < target ∧ target ≤ mediumW1Max
    · rw [if_pos taken, if_pos taken]
      omega
    · rw [if_neg taken, if_neg taken]
      omega
  rw [← total, distributeMedium_eq plan positive]
  apply splits_of_shares
  · apply Summed.grant
    · exact summed.grant _ (fresh 1)
    · simp [grant_newLimits, fresh 2]
  · intro worker share
    fin_cases worker
    · exact absurd rfl share
    · simp [workerAssignments]
    · simp [workerAssignments]
  · intro worker other
    simp only [grant_newLimits]
    fin_cases worker <;> simp +contextual [mediumShare, fresh 0]

/-- Worker 2 alone takes what the class may hold. -/
theorem grant_last_splits {plan : Plan} (summed : plan.Summed) {priority : Priority}
    (fresh : plan.Fresh priority) (eligible : priority ∈ workerAssignments 2) (value : Nat) :
    Splits plan (plan.grant 2 priority value) priority value := by
  have total : ∑ worker : WorkerId, (if worker = 2 then value else 0) = value := by simp
  have splits : Splits plan (plan.grant 2 priority value) priority
      (∑ worker : WorkerId, (if worker = 2 then value else 0)) := by
    apply splits_of_shares (summed.grant value (fresh 2))
    · intro worker share
      have last : worker = 2 := by
        by_contra different
        exact share (if_neg different)
      exact last ▸ eligible
    · intro worker other
      rw [grant_newLimits]
      by_cases same : other = priority
      · subst same
        simp [fresh worker]
      · simp [same]
  rwa [total] at splits

/-- What has been given out after the classes of `served` had their turn. -/
structure Allotted (plan : Plan) (slots : PriorityTable Nat) (served : List Priority) : Prop where
  summed : plan.Summed
  assigned : ∀ worker priority, plan.newLimits worker priority ≠ 0 →
    priority ∈ workerAssignments worker
  slots : ∀ priority ∈ served, ∑ worker, plan.newLimits worker priority = slots priority
  fresh : ∀ priority, priority ∉ served → plan.Fresh priority

theorem empty_allotted (slots : PriorityTable Nat) : Allotted .empty slots [] where
  summed := empty_summed
  assigned _ _ quota := absurd rfl quota
  slots _ served := absurd served List.not_mem_nil
  fresh _ _ _ := rfl

/-- A turn of one more class. -/
theorem Allotted.splits {plan after : Plan} {slots : PriorityTable Nat} {served : List Priority}
    (allotted : Allotted plan slots served) {priority : Priority} (turn : priority ∉ served)
    (splits : Splits plan after priority (slots priority)) :
    Allotted after slots (priority :: served) where
  summed := splits.summed
  assigned worker other quota := by
    by_cases same : other = priority
    · subst same
      exact splits.assigned worker quota
    · rw [splits.others worker other same] at quota
      exact allotted.assigned worker other quota
  slots other member := by
    rcases List.mem_cons.mp member with rfl | earlier
    · exact splits.slots
    · have different : other ≠ priority := fun same => turn (same ▸ earlier)
      rw [← allotted.slots other earlier]
      exact Finset.sum_congr rfl fun worker _ => splits.others worker other different
  fresh other absent worker := by
    rw [splits.others worker other (List.ne_of_not_mem_cons absent)]
    exact allotted.fresh other (List.not_mem_of_not_mem_cons absent) worker

theorem Allotted.guarding {plan : Plan} {slots : PriorityTable Nat} {served : List Priority}
    (allotted : Allotted plan slots served) (priority : Priority) (threshold candidate : Nat) :
    Allotted (plan.guarding priority threshold candidate) slots served :=
  ⟨allotted.summed, allotted.assigned, allotted.slots, allotted.fresh⟩

end Plan

/-- The most slots the splits of a class can give out together. -/
def slotCap : PriorityTable Nat
  | .high => 66
  | .medium => 320
  | .low => 192
  | .bestEffort => 128

/-- Best effort gets a fixed quota, the other classes their target up to the cap. -/
def slotsGiven (budgetNs avgNs depth : PriorityTable Nat) : PriorityTable Nat
  | .bestEffort => slotCap .bestEffort
  | priority => min (targetDepth (capacity (budgetNs priority) (avgNs priority)) (depth priority))
      (slotCap priority)

theorem targetDepth_pos (budgetNs avgNs depth : Nat) :
    1 ≤ targetDepth (capacity budgetNs avgNs) depth := by
  have least := capacity_pos budgetNs avgNs
  unfold targetDepth
  omega

/-- The turn of each class the balancer adapts. -/
theorem Plan.Allotted.balance {budgetNs avgNs depth : PriorityTable Nat} {plan : Plan}
    {served : List Priority} (allotted : Allotted plan (slotsGiven budgetNs avgNs depth) served)
    {priority : Priority} (turn : priority ∉ served) (adapted : priority ≠ .bestEffort)
    (budgetPositive : 0 < budgetNs priority) (avgPositive : 0 < avgNs priority) :
    Allotted (plan.balance budgetNs avgNs depth priority) (slotsGiven budgetNs avgNs depth)
      (priority :: served) := by
  have valid : ¬ (budgetNs priority = 0 ∨ avgNs priority = 0) := by omega
  have positive := targetDepth_pos (budgetNs priority) (avgNs priority) (depth priority)
  have fresh := allotted.fresh priority turn
  unfold Plan.balance
  simp only [if_neg valid]
  cases priority with
  | high =>
      exact (allotted.splits turn (distributeHigh_splits allotted.summed fresh positive)).guarding ..
  | medium =>
      exact (allotted.splits turn
        (distributeMedium_splits allotted.summed fresh positive)).guarding ..
  | low =>
      have capped := grant_last_splits allotted.summed fresh (by decide)
        (min (max (targetDepth (capacity (budgetNs .low) (avgNs .low)) (depth .low)) 1) lowMax)
      rw [max_eq_left positive] at capped
      refine (allotted.splits turn ?_).guarding ..
      rw [Plan.distributeLow, max_eq_left positive]
      exact capped
  | bestEffort => exact absurd rfl adapted

/-- The plan whose quotas a pass stores. -/
def finalPlan (budgetNs avgNs depth : PriorityTable Nat) : Plan :=
  (Priority.all.foldl (Plan.balance budgetNs avgNs depth) .empty).grant 2 .bestEffort bestEffortMax

theorem finalPlan_allotted {budgetNs avgNs depth : PriorityTable Nat}
    (budgetPositive : ∀ priority, 0 < budgetNs priority) (avgPositive : ∀ priority, 0 < avgNs priority) :
    Plan.Allotted (finalPlan budgetNs avgNs depth) (slotsGiven budgetNs avgNs depth)
      [.bestEffort, .low, .medium, .high] := by
  have high : Plan.Allotted (Plan.empty.balance budgetNs avgNs depth .high) _ [.high] :=
    (Plan.empty_allotted _).balance List.not_mem_nil (by decide) (budgetPositive _) (avgPositive _)
  have medium : Plan.Allotted (Plan.balance budgetNs avgNs depth _ .medium) _ [.medium, .high] :=
    high.balance (by decide) (by decide) (budgetPositive _) (avgPositive _)
  have low : Plan.Allotted (Plan.balance budgetNs avgNs depth _ .low) _ [.low, .medium, .high] :=
    medium.balance (by decide) (by decide) (budgetPositive _) (avgPositive _)
  have unadapted (plan : Plan) : plan.balance budgetNs avgNs depth .bestEffort = plan := by
    simp only [Plan.balance, ite_self]
  have bestEffort := Plan.grant_last_splits low.summed (low.fresh .bestEffort (by decide))
    (by decide) bestEffortMax
  have final := low.splits (by decide) bestEffort
  rwa [← unadapted (Plan.balance _ _ _ _ .low)] at final

/-! ## Publication -/

namespace AdaptiveController

def publish (controller : AdaptiveController) (stores : List Store) : AdaptiveController :=
  stores.foldl apply controller

/-- `controller` and `other` agree on the limits. -/
def SameLimits (controller other : AdaptiveController) : Prop :=
  controller.workerTotalLimits = other.workerTotalLimits ∧
    controller.workerPriorityLimits = other.workerPriorityLimits

theorem publish_sameLimits {stores : List Store}
    (guards : ∀ store ∈ stores, ∀ controller : AdaptiveController,
      (controller.apply store).SameLimits controller)
    (controller : AdaptiveController) : (controller.publish stores).SameLimits controller := by
  induction stores generalizing controller with
  | nil => exact ⟨rfl, rfl⟩
  | cons store rest ih =>
      have later := ih (fun other member => guards other (List.mem_cons_of_mem _ member))
        (controller.apply store)
      have first := guards store List.mem_cons_self controller
      exact ⟨later.1.trans first.1, later.2.trans first.2⟩

def quotaStores (totals : WorkerId → Nat) (limits : WorkerId → PriorityTable Nat) : List Store :=
  (List.finRange 3).flatMap fun worker =>
    .totalLimit worker (totals worker) ::
      Priority.all.map fun priority => .priorityLimit worker priority (limits worker priority)

theorem publish_quotaStores (controller : AdaptiveController) (totals : WorkerId → Nat)
    (limits : WorkerId → PriorityTable Nat) (worker : WorkerId) :
    (controller.publish (quotaStores totals limits)).workerTotalLimits worker =
        max (totals worker) 1 ∧
      (controller.publish (quotaStores totals limits)).workerPriorityLimits worker =
        limits worker := by
  constructor
  · fin_cases worker <;> rfl
  · funext priority
    fin_cases worker <;> cases priority <;> rfl

/-- What a worker reads once a pass has made all its stores. -/
theorem publish_autobalance (controller : AdaptiveController) (budgetNs avgNs depth : PriorityTable Nat)
    (worker : WorkerId) :
    (controller.publish (autobalance budgetNs avgNs depth)).workerTotalLimits worker =
        max (max ((finalPlan budgetNs avgNs depth).newTotals worker) (minTotal worker)) 1 ∧
      (controller.publish (autobalance budgetNs avgNs depth)).workerPriorityLimits worker =
        (finalPlan budgetNs avgNs depth).newLimits worker := by
  let plan := finalPlan budgetNs avgNs depth
  let thresholds := plan.guardThresholds.map fun entry => Store.guardThreshold entry.1 entry.2
  let slices := ((plan.guardSliceCandidates.map Prod.snd).min?).toList.map fun best =>
    Store.guardSlice (min (max best 5) 50)
  let quotas := quotaStores (fun worker => max (plan.newTotals worker) (minTotal worker)) plan.newLimits
  have stores : autobalance budgetNs avgNs depth = thresholds ++ quotas ++ slices := rfl
  have sliced : ((controller.publish (thresholds ++ quotas)).publish slices).SameLimits
      (controller.publish (thresholds ++ quotas)) := by
    apply publish_sameLimits
    intro store member controller
    obtain ⟨best, _, rfl⟩ := List.mem_map.mp member
    exact ⟨rfl, rfl⟩
  have published := publish_quotaStores (controller.publish thresholds)
    (fun worker => max (plan.newTotals worker) (minTotal worker)) plan.newLimits worker
  have joined : controller.publish (thresholds ++ quotas) =
      (controller.publish thresholds).publish quotas := List.foldl_append
  have whole : controller.publish (autobalance budgetNs avgNs depth) =
      (controller.publish (thresholds ++ quotas)).publish slices := by
    rw [stores]
    exact List.foldl_append
  rw [whole, sliced.1, sliced.2, joined]
  exact published

end AdaptiveController

/-- `budget_ns`: the budgets as 64-bit nanoseconds. -/
def budgetNs (expectedLatencies : PriorityTable Duration) : PriorityTable Nat :=
  fun priority => expectedLatencies priority % wordBound

/-- One pass of `autobalance_loop` over the averages and the counters it reads. -/
def AdaptiveController.rebalance (controller : AdaptiveController)
    (expectedLatencies : PriorityTable Duration) (processingEmaNs : PriorityTable Nat)
    (workerPriorityCounters : WorkerId → PriorityTable Nat) : AdaptiveController :=
  controller.publish (autobalance (budgetNs expectedLatencies)
    (fun priority => max (processingEmaNs priority) 1)
    (fun priority => ∑ worker, workerPriorityCounters worker priority))

/-- The quotas of `published` are usable for the given capacities and targets. -/
structure QuotasUsable (published : AdaptiveController) (capacity target : PriorityTable Nat) :
    Prop where
  assigned : ∀ worker priority, published.workerPriorityLimits worker priority ≠ 0 →
    priority ∈ workerAssignments worker
  served : ∀ priority, ∃ worker, priority ∈ workerAssignments worker ∧
    1 ≤ published.workerPriorityLimits worker priority
  bounded : ∀ priority, capacity priority ≤ target priority ∧ target priority ≤ 2 * capacity priority
  high : ∑ worker, published.workerPriorityLimits worker .high = min (target .high) 66
  medium : ∑ worker, published.workerPriorityLimits worker .medium = min (target .medium) 320
  low : ∑ worker, published.workerPriorityLimits worker .low = min (target .low) 192
  covered : ∀ worker, ∑ priority, published.workerPriorityLimits worker priority ≤
    published.totalLimit worker

/-- Publishing an allotted plan publishes usable quotas. -/
theorem QuotasUsable.of_allotted {budgetNs avgNs depth : PriorityTable Nat} {plan : Plan}
    (avgPositive : ∀ priority, 0 < avgNs priority)
    (allotted : plan.Allotted (slotsGiven budgetNs avgNs depth) [.bestEffort, .low, .medium, .high])
    {published : AdaptiveController}
    (limits : ∀ worker, published.workerPriorityLimits worker = plan.newLimits worker)
    (totals : ∀ worker, plan.newTotals worker ≤ published.totalLimit worker) :
    QuotasUsable published (fun priority => idealCapacity (budgetNs priority) (avgNs priority))
      (fun priority => idealTarget (budgetNs priority) (avgNs priority) (depth priority)) := by
  have given (priority : Priority) : ∑ worker, published.workerPriorityLimits worker priority =
      slotsGiven budgetNs avgNs depth priority := by
    rw [← allotted.slots priority (by cases priority <;> decide)]
    exact Finset.sum_congr rfl fun worker _ => congrFun (limits worker) priority
  have target (priority : Priority) :=
    targetDepth_eq_idealTarget (budgetNs priority) (depth priority) (avgPositive priority)
  have assigned (worker : WorkerId) (priority : Priority) :
      published.workerPriorityLimits worker priority ≠ 0 → priority ∈ workerAssignments worker := by
    rw [limits worker]
    exact allotted.assigned worker priority
  constructor
  · exact assigned
  · intro priority
    have some_slot : ∑ worker, published.workerPriorityLimits worker priority ≠ 0 := by
      have least := targetDepth_pos (budgetNs priority) (avgNs priority) (depth priority)
      rw [given priority]
      cases priority <;> simp only [slotsGiven, slotCap] <;> omega
    obtain ⟨worker, _, quota⟩ := Finset.exists_ne_zero_of_sum_ne_zero some_slot
    exact ⟨worker, assigned worker priority quota, Nat.one_le_iff_ne_zero.mpr quota⟩
  · intro priority
    unfold idealTarget
    omega
  · rw [given .high, ← target .high]
    rfl
  · rw [given .medium, ← target .medium]
    rfl
  · rw [given .low, ← target .low]
    rfl
  · intro worker
    rw [limits worker, ← allotted.summed worker]
    exact totals worker

theorem rebalance_keeps_quotas_usable (controller : AdaptiveController)
    {expectedLatencies : PriorityTable Duration} (processingEmaNs : PriorityTable Nat)
    (workerPriorityCounters : WorkerId → PriorityTable Nat)
    (positive : ∀ priority, 0 < budgetNs expectedLatencies priority) :
    QuotasUsable
      (controller.rebalance expectedLatencies processingEmaNs workerPriorityCounters)
      (fun priority => idealCapacity (budgetNs expectedLatencies priority)
        (max (processingEmaNs priority) 1))
      (fun priority => idealTarget (budgetNs expectedLatencies priority)
        (max (processingEmaNs priority) 1) (∑ worker, workerPriorityCounters worker priority)) := by
  have avgPositive (priority : Priority) : 0 < max (processingEmaNs priority) 1 := by omega
  have published := controller.publish_autobalance (budgetNs expectedLatencies)
    (fun priority => max (processingEmaNs priority) 1)
    (fun priority => ∑ worker, workerPriorityCounters worker priority)
  apply QuotasUsable.of_allotted avgPositive (finalPlan_allotted positive avgPositive)
  · intro worker
    exact (published worker).2
  · intro worker
    rw [AdaptiveController.totalLimit, AdaptiveController.rebalance, (published worker).1]
    omega

/-- The averages the controller starts with and a backlog of three a worker. -/
theorem first_rebalance_keeps_quotas_usable :
    (∀ priority, 0 < budgetNs (fun _ => .fromMillis 10) priority) ∧
      QuotasUsable
        (AdaptiveController.new.rebalance (fun _ => .fromMillis 10)
          AdaptiveController.new.processingEmaNs fun _ _ => 3)
        (fun priority => idealCapacity (budgetNs (fun _ => .fromMillis 10) priority)
          (max (AdaptiveController.new.processingEmaNs priority) 1))
        (fun priority => idealTarget (budgetNs (fun _ => .fromMillis 10) priority)
          (max (AdaptiveController.new.processingEmaNs priority) 1) (∑ _ : WorkerId, 3)) := by
  have positive : ∀ priority, 0 < budgetNs (fun _ => .fromMillis 10) priority := by decide
  exact ⟨positive, rebalance_keeps_quotas_usable _ _ _ positive⟩

end EdfPipeline.MultiWorker
