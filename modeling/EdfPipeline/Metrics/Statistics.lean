import EdfPipeline.Library.Binary64
import EdfPipeline.Library.NearestRank
import EdfPipeline.Library.TransitionSystem
import EdfPipeline.Metrics.Collector
import Mathlib.Data.List.MinMax
import Mathlib.Data.Nat.Sqrt

/-!
# Statistics of one class

The window of measurements, the percentiles that are cached beside it and the
snapshot made of a clone. The ranks of percentiles are computed in floating
point, so every function that computes them takes the rounding of a single
operation: `Binary64.nearest` in the program, `id` for exact arithmetic. Latencies
are kept in nanoseconds, and their mean and deviation are exact.
-/

set_option autoImplicit false

namespace EdfPipeline

open NearestRank

namespace Metrics

/-- Measurements leave from the front until one is within the window. -/
def evict (latencies : List LatencyMeasurement) (now : Instant) (timeWindow : Duration) :
    List LatencyMeasurement :=
  let cutoffTime := (Instant.checkedSub now timeWindow).getD now
  latencies.dropWhile fun front => front.timestamp < cutoffTime

def clearCache (metrics : Metrics) : Metrics :=
  { metrics with cachedP50 := none, cachedP95 := none, cachedP99 := none, cachedP999 := none }

def cleanupOldMeasurements (metrics : Metrics) (now : Instant) : Metrics :=
  { metrics with latencies := evict metrics.latencies now metrics.timeWindow }.clearCache

def sorted (metrics : Metrics) : List Duration :=
  (metrics.latencies.map LatencyMeasurement.latency).insertionSort (· ≤ ·)

section Percentiles

variable (rounding : ℚ → ℚ)

def percentileRank (len : Nat) (percent : ℚ) : Nat :=
  ⌈rounding (rounding (rounding len * rounding percent) / 100)⌉₊

def percentileIndex (len : Nat) (percent : ℚ) : Nat :=
  min (percentileRank rounding len percent - 1) (len - 1)

/-- The index never leaves the list, see `percentileIndex_lt`. -/
def percentile (sorted : List Duration) (percent : ℚ) : Option Duration :=
  sorted[percentileIndex rounding sorted.length percent]?

/-- The cache is taken to be valid while no packet has been counted since. -/
def computeAndCachePercentiles (metrics : Metrics) : Metrics :=
  if metrics.cachedPacketCount = metrics.packetCount then metrics
  else if metrics.latencies = [] then
    { metrics.clearCache with cachedPacketCount := metrics.packetCount }
  else
    { metrics with
      cachedP50 := percentile rounding metrics.sorted 50
      cachedP95 := percentile rounding metrics.sorted 95
      cachedP99 := percentile rounding metrics.sorted 99
      cachedP999 := percentile rounding metrics.sorted (999 / 10)
      cachedPacketCount := metrics.packetCount }

def p50 (metrics : Metrics) : Option Duration × Metrics :=
  let metrics := metrics.computeAndCachePercentiles rounding
  (metrics.cachedP50, metrics)

def p95 (metrics : Metrics) : Option Duration × Metrics :=
  let metrics := metrics.computeAndCachePercentiles rounding
  (metrics.cachedP95, metrics)

def p99 (metrics : Metrics) : Option Duration × Metrics :=
  let metrics := metrics.computeAndCachePercentiles rounding
  (metrics.cachedP99, metrics)

def p999 (metrics : Metrics) : Option Duration × Metrics :=
  let metrics := metrics.computeAndCachePercentiles rounding
  (metrics.cachedP999, metrics)

end Percentiles

def averageLatency (metrics : Metrics) : ℚ :=
  if metrics.latencies = [] then 0
  else ((metrics.latencies.map LatencyMeasurement.latency).sum : ℚ) / metrics.latencies.length

/-- To the nearest nanosecond. -/
def standardDeviation (metrics : Metrics) : Option Duration :=
  if metrics.latencies.length < 2 then none
  else
    let deviation (measurement : LatencyMeasurement) : ℚ :=
      measurement.latency - metrics.averageLatency
    let variance := (metrics.latencies.map fun m => deviation m ^ 2).sum / metrics.latencies.length
    some ((Nat.sqrt ⌊4 * variance⌋₊ + 1) / 2)

def minLatency (metrics : Metrics) : Option Duration :=
  (metrics.latencies.map LatencyMeasurement.latency).min?

def maxLatency (metrics : Metrics) : Option Duration :=
  (metrics.latencies.map LatencyMeasurement.latency).max?

def clone (metrics : Metrics) : Metrics := { metrics.clearCache with cachedPacketCount := 0 }

end Metrics

/-- The latencies of a `MetricsSnapshot`. -/
structure MetricsSnapshot where
  packetCount : Nat
  avgLatency : ℚ
  minLatency : Option Duration
  maxLatency : Option Duration
  p50 : Option Duration
  p95 : Option Duration
  p99 : Option Duration
  p999 : Option Duration
  p100 : Option Duration
  stdDev : Option Duration
  deadlineMisses : Nat
  deriving DecidableEq, Repr

section Snapshots

variable (rounding : ℚ → ℚ)

/-- The percentiles are queried one after the other. -/
def Metrics.snapshot (metrics : Metrics) : MetricsSnapshot :=
  let (p50, metrics) := metrics.p50 rounding
  let (p95, metrics) := metrics.p95 rounding
  let (p99, metrics) := metrics.p99 rounding
  let (p999, metrics) := metrics.p999 rounding
  { packetCount := metrics.packetCount
    avgLatency := metrics.averageLatency
    minLatency := metrics.minLatency
    maxLatency := metrics.maxLatency
    p50, p95, p99, p999
    p100 := metrics.maxLatency
    stdDev := metrics.standardDeviation
    deadlineMisses := metrics.deadlineMisses }

/-- `send_current_metrics` at this time: what is left in the map, and the snapshots
of its clone. -/
def sendCurrentMetrics (metrics : PriorityTable (Option Metrics)) (now : Instant) :
    PriorityTable (Option Metrics) × PriorityTable (Option MetricsSnapshot) :=
  let cleaned := fun priority => (metrics priority).map (·.cleanupOldMeasurements now)
  (cleaned, fun priority => (cleaned priority).map fun entry => entry.clone.snapshot rounding)

end Snapshots

/-! ## Sessions of calls -/

inductive Percentile where
  | p50
  | p95
  | p99
  | p999
  deriving DecidableEq, Repr

def Percentile.percent : Percentile → ℚ
  | .p50 => 50
  | .p95 => 95
  | .p99 => 99
  | .p999 => 999 / 10

def Metrics.query (rounding : ℚ → ℚ) (metrics : Metrics) : Percentile → Option Duration × Metrics
  | .p50 => metrics.p50 rounding
  | .p95 => metrics.p95 rounding
  | .p99 => metrics.p99 rounding
  | .p999 => metrics.p999 rounding

/-- A value and the last reading of the clock. -/
structure Session where
  clock : Instant
  metrics : Metrics
  deriving DecidableEq, Repr

/-- Which of the two values the calls after a `clone` go to. -/
inductive Followed where
  | original
  | clone
  deriving DecidableEq, Repr

/-- A call, with its reading of the clock. -/
inductive Call where
  | recordLatency (now : Instant) (latency : Duration) (deadlineMissed : Bool)
  | cleanupOldMeasurements (now : Instant)
  | clone (followed : Followed)
  | query (percentile : Percentile)
  deriving DecidableEq, Repr

namespace Session

def start (priority : Priority) (timeWindow : Duration) : Session where
  clock := 0
  metrics := { Metrics.new priority with timeWindow }

/-- The clock never goes back. Making a clone leaves the original as it is. -/
def step (rounding : ℚ → ℚ) (session : Session) : Call → Option Session
  | .recordLatency now latency deadlineMissed =>
      if session.clock ≤ now then
        some { clock := now, metrics := session.metrics.recordLatency now latency deadlineMissed }
      else none
  | .cleanupOldMeasurements now =>
      if session.clock ≤ now then
        some { clock := now, metrics := session.metrics.cleanupOldMeasurements now }
      else none
  | .clone .original => some session
  | .clone .clone => some { session with metrics := session.metrics.clone }
  | .query percentile =>
      some { session with metrics := (session.metrics.query rounding percentile).2 }

end Session

/-! ## Ranks -/

theorem Percentile.percent_pos (percentile : Percentile) : 0 < percentile.percent := by
  cases percentile <;> decide +kernel

theorem Percentile.percent_le (percentile : Percentile) : percentile.percent ≤ 100 := by
  cases percentile <;> decide +kernel

namespace Metrics

/-- Neither subtraction underflows, whatever the rounding. -/
theorem percentileRank_pos {rounding : ℚ → ℚ} (keeps : ∀ value, 0 < value → 0 < rounding value)
    {len : Nat} (nonempty : 0 < len) {percent : ℚ} (positive : 0 < percent) :
    0 < percentileRank rounding len percent := by
  have counted : 0 < rounding len := keeps _ (Nat.cast_pos.mpr nonempty)
  have scaled : 0 < rounding (rounding len * rounding percent) :=
    keeps _ (mul_pos counted (keeps _ positive))
  exact Nat.ceil_pos.mpr (keeps _ (div_pos scaled (by norm_num)))

/-- One can be subtracted from a rank of the program. -/
theorem percentileRank_nearest_pos {len : Nat} (nonempty : 0 < len) (percentile : Percentile) :
    0 < percentileRank Binary64.nearest len percentile.percent :=
  percentileRank_pos (fun _ => Binary64.nearest_pos) nonempty percentile.percent_pos

/-- In double precision the rank of p99.9 is one too high. -/
example : percentileRank Binary64.nearest 41000 (999 / 10) = 40960 ∧
    percentRank 41000 (999 / 10) = 40959 := by
  decide +kernel

/-- The index stays within the list. -/
theorem percentileIndex_lt (rounding : ℚ → ℚ) {len : Nat} (nonempty : 0 < len) (percent : ℚ) :
    percentileIndex rounding len percent < len := by
  unfold percentileIndex
  omega

/-- In exact arithmetic it is that of the nearest rank. -/
theorem percentileIndex_exact {len : Nat} {percent : ℚ} (within : percent ≤ 100) :
    percentileIndex id len percent = percentRank len percent - 1 := by
  have rank_le := percentRank_le len within
  have index_eq : percentileIndex id len percent =
      min (percentRank len percent - 1) (len - 1) := rfl
  omega

/-- The answer is the nearest-rank percentile of the window, and nothing exactly
for an empty window. -/
def Answers (latencies : List LatencyMeasurement) (percentile : Percentile) :
    Option Duration → Prop
  | none => latencies = []
  | some value =>
      HasRank (percentRank latencies.length percentile.percent)
        (latencies.map LatencyMeasurement.latency) value

instance (latencies : List LatencyMeasurement) (percentile : Percentile) :
    ∀ answer, Decidable (Answers latencies percentile answer)
  | none => inferInstanceAs (Decidable (latencies = []))
  | some _ => inferInstanceAs (Decidable (HasRank _ _ _))

theorem sorted_perm (metrics : Metrics) :
    metrics.sorted.Perm (metrics.latencies.map LatencyMeasurement.latency) :=
  List.perm_insertionSort _ _

theorem sorted_eq_nil {metrics : Metrics} (empty : metrics.latencies = []) :
    metrics.sorted = [] := by
  rw [sorted, empty]
  rfl

theorem length_sorted (metrics : Metrics) : metrics.sorted.length = metrics.latencies.length := by
  rw [metrics.sorted_perm.length_eq, List.length_map]

/-- The number of measurements is one whose rank the rounding leaves as it is, or the
measurements at the two ranks are equal. -/
def RankFound (rounding : ℚ → ℚ) (metrics : Metrics) (percentile : Percentile) : Prop :=
  percentileIndex rounding metrics.latencies.length percentile.percent =
      percentRank metrics.latencies.length percentile.percent - 1 ∨
    metrics.sorted[percentileIndex rounding metrics.latencies.length percentile.percent]? =
      metrics.sorted[percentRank metrics.latencies.length percentile.percent - 1]?

instance (rounding : ℚ → ℚ) (metrics : Metrics) (percentile : Percentile) :
    Decidable (RankFound rounding metrics percentile) :=
  inferInstanceAs (Decidable (_ ∨ _))

theorem rankFound_iff {rounding : ℚ → ℚ} {metrics : Metrics} {percentile : Percentile} :
    RankFound rounding metrics percentile ↔
      metrics.sorted[percentileIndex rounding metrics.latencies.length percentile.percent]? =
        metrics.sorted[percentRank metrics.latencies.length percentile.percent - 1]? := by
  constructor
  · rintro (same | equal)
    · rw [same]
    · exact equal
  · exact .inr

theorem rankFound_of_empty (rounding : ℚ → ℚ) {metrics : Metrics} (empty : metrics.latencies = [])
    (percentile : Percentile) : RankFound rounding metrics percentile := by
  rw [rankFound_iff, sorted_eq_nil empty]
  rfl

theorem rankFound_exact (metrics : Metrics) (percentile : Percentile) :
    RankFound id metrics percentile :=
  .inl (percentileIndex_exact percentile.percent_le)

/-- What is found at the rank computed is the percentile exactly if it is found at
the nearest rank. -/
theorem percentile_answers_iff (rounding : ℚ → ℚ) (metrics : Metrics) (percentile : Percentile) :
    Answers metrics.latencies percentile
        (Metrics.percentile rounding metrics.sorted percentile.percent) ↔
      RankFound rounding metrics percentile := by
  rw [Metrics.percentile, rankFound_iff, length_sorted]
  by_cases empty : metrics.latencies = []
  · rw [sorted_eq_nil empty]
    exact iff_of_true empty rfl
  · have nonempty : 0 < metrics.latencies.length := List.length_pos_iff.mpr empty
    have rank_pos := percentRank_pos nonempty percentile.percent_pos
    have rank_le := percentRank_le metrics.latencies.length percentile.percent_le
    obtain ⟨value, found⟩ : ∃ value, metrics.sorted[percentileIndex rounding
        metrics.latencies.length percentile.percent]? = some value :=
      ⟨_, List.getElem?_eq_getElem (by
        rw [length_sorted]
        exact percentileIndex_lt rounding nonempty _)⟩
    obtain ⟨nearest, ranked⟩ : ∃ nearest, metrics.sorted[percentRank metrics.latencies.length
        percentile.percent - 1]? = some nearest :=
      ⟨_, List.getElem?_eq_getElem (by
        rw [length_sorted]
        omega)⟩
    have has := hasRank_of_sorted (List.pairwise_insertionSort (· ≤ ·) _) ranked
    rw [Nat.sub_add_cancel rank_pos] at has
    have nearest_has := has.perm metrics.sorted_perm
    rw [found, ranked, Option.some_inj]
    constructor
    · exact fun value_has => value_has.unique nearest_has
    · rintro rfl
      exact nearest_has

def cached (metrics : Metrics) : Percentile → Option Duration
  | .p50 => metrics.cachedP50
  | .p95 => metrics.cachedP95
  | .p99 => metrics.cachedP99
  | .p999 => metrics.cachedP999

theorem query_eq (rounding : ℚ → ℚ) (metrics : Metrics) (percentile : Percentile) :
    metrics.query rounding percentile =
      ((metrics.computeAndCachePercentiles rounding).cached percentile,
        metrics.computeAndCachePercentiles rounding) := by
  cases percentile <;> rfl

theorem cached_clearCache (metrics : Metrics) (percentile : Percentile) :
    metrics.clearCache.cached percentile = none := by
  cases percentile <;> rfl

theorem compute_frame (rounding : ℚ → ℚ) (metrics : Metrics) :
    (metrics.computeAndCachePercentiles rounding).latencies = metrics.latencies ∧
      (metrics.computeAndCachePercentiles rounding).packetCount = metrics.packetCount ∧
      (metrics.computeAndCachePercentiles rounding).timeWindow = metrics.timeWindow := by
  unfold computeAndCachePercentiles
  split
  · exact ⟨rfl, rfl, rfl⟩
  · split <;> exact ⟨rfl, rfl, rfl⟩

/-- Computed anew, the cache holds what is found at the ranks computed. -/
theorem compute_cached (rounding : ℚ → ℚ) {metrics : Metrics}
    (outdated : metrics.cachedPacketCount ≠ metrics.packetCount) (percentile : Percentile) :
    (metrics.computeAndCachePercentiles rounding).cachedPacketCount = metrics.packetCount ∧
      (metrics.computeAndCachePercentiles rounding).cached percentile =
        Metrics.percentile rounding metrics.sorted percentile.percent := by
  by_cases empty : metrics.latencies = []
  · rw [computeAndCachePercentiles, if_neg outdated, if_pos empty, sorted_eq_nil empty]
    refine ⟨rfl, ?_⟩
    cases percentile <;> rfl
  · rw [computeAndCachePercentiles, if_neg outdated, if_neg empty]
    refine ⟨rfl, ?_⟩
    cases percentile <;> rfl

end Metrics

end EdfPipeline
