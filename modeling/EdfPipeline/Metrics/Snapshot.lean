import EdfPipeline.Egress.Moves
import EdfPipeline.Metrics.PercentileCache
import Mathlib.Algebra.Order.BigOperators.Group.List

/-!
# Published statistics

The statistics thread evicts what is too old, clones the metrics and computes
the snapshot on the clone, whose cache is empty.
-/

set_option autoImplicit false

namespace EdfPipeline

open NearestRank TransitionSystem

def MetricsSnapshot.percentile (snapshot : MetricsSnapshot) : Percentile → Option Duration
  | .p50 => snapshot.p50
  | .p95 => snapshot.p95
  | .p99 => snapshot.p99
  | .p999 => snapshot.p999

/-- What a snapshot says of a window that is not empty. -/
structure MetricsSnapshot.Consistent (snapshot : MetricsSnapshot) (window : List Duration) :
    Prop where
  indices (percentile : Percentile) :
    0 < percentRank window.length percentile.percent ∧
      Metrics.percentileIndex id window.length percentile.percent < window.length
  ordered : ∃ values : List Duration,
    [snapshot.minLatency, snapshot.p50, snapshot.p95, snapshot.p99, snapshot.p999,
        snapshot.p100] = values.map some ∧ values.Pairwise (· ≤ ·)
  average : ∀ least ∈ snapshot.minLatency, ∀ greatest ∈ snapshot.p100,
    (least : ℚ) ≤ snapshot.avgLatency ∧ snapshot.avgLatency ≤ greatest
  ranked (percentile : Percentile) : ∃ value, snapshot.percentile percentile = some value ∧
    HasRank (percentRank window.length percentile.percent) window value
  last : ∃ greatest, snapshot.p100 = some greatest ∧
    HasRank (percentRank window.length 100) window greatest

namespace Metrics

def window (metrics : Metrics) : List Duration :=
  metrics.latencies.map LatencyMeasurement.latency

theorem window_ne_nil {metrics : Metrics} (filled : metrics.latencies ≠ []) :
    metrics.window ≠ [] := by
  simpa [window] using filled

theorem minLatency_spec {metrics : Metrics} (filled : metrics.latencies ≠ []) :
    ∃ least, metrics.minLatency = some least ∧ HasRank 1 metrics.window least := by
  obtain ⟨least, found⟩ :=
    Option.isSome_iff_exists.mp (List.isSome_min?_of_ne_nil (window_ne_nil filled))
  obtain ⟨member, least_le⟩ := List.min?_eq_some_iff.mp found
  exact ⟨least, found, hasRank_one member least_le⟩

theorem maxLatency_spec {metrics : Metrics} (filled : metrics.latencies ≠ []) :
    ∃ greatest, metrics.maxLatency = some greatest ∧
      HasRank metrics.window.length metrics.window greatest := by
  obtain ⟨greatest, found⟩ :=
    Option.isSome_iff_exists.mp (List.isSome_max?_of_ne_nil (window_ne_nil filled))
  obtain ⟨member, le_greatest⟩ := List.max?_eq_some_iff.mp found
  exact ⟨greatest, found, hasRank_length member le_greatest⟩

/-- The mean lies between any bounds of the window. -/
theorem averageLatency_bounds {metrics : Metrics} (filled : metrics.latencies ≠ [])
    {least greatest : Duration} (least_le : ∀ latency ∈ metrics.window, least ≤ latency)
    (le_greatest : ∀ latency ∈ metrics.window, latency ≤ greatest) :
    (least : ℚ) ≤ metrics.averageLatency ∧ metrics.averageLatency ≤ greatest := by
  have counted : (0 : ℚ) < metrics.latencies.length :=
    Nat.cast_pos.mpr (List.length_pos_iff.mpr filled)
  have low := List.card_nsmul_le_sum metrics.window least least_le
  have high := List.sum_le_card_nsmul metrics.window greatest le_greatest
  rw [window, List.length_map, nsmul_eq_mul, Nat.cast_id] at low high
  rw [averageLatency, if_neg filled]
  constructor
  · rw [le_div_iff₀ counted, mul_comm]
    exact_mod_cast low
  · rw [div_le_iff₀ counted, mul_comm]
    exact_mod_cast high

/-- Computed on a clone, the percentiles are those of the window. -/
theorem snapshot_clone {metrics : Metrics} (counted : metrics.packetCount ≠ 0) :
    (metrics.clone.snapshot id).avgLatency = metrics.averageLatency ∧
      (metrics.clone.snapshot id).minLatency = metrics.minLatency ∧
      (metrics.clone.snapshot id).p100 = metrics.maxLatency ∧
      ∀ percentile, Answers metrics.latencies percentile
        ((metrics.clone.snapshot id).percentile percentile) := by
  have outdated : metrics.clone.cachedPacketCount ≠ metrics.clone.packetCount := counted.symm
  have computed := compute_cached id outdated
  have settled : (metrics.clone.computeAndCachePercentiles id).computeAndCachePercentiles id =
      metrics.clone.computeAndCachePercentiles id := by
    refine if_pos ?_
    rw [(computed .p50).1, (metrics.clone.compute_frame id).2.1]
  have latencies := (metrics.clone.compute_frame id).1
  simp only [snapshot, p50, p95, p99, p999, settled, averageLatency, minLatency, maxLatency,
    latencies]
  refine ⟨rfl, rfl, rfl, ?_⟩
  intro percentile
  have answers := (percentile_answers_iff id metrics.clone percentile).mpr (rankFound_exact _ _)
  rw [← (computed percentile).2] at answers
  cases percentile <;> exact answers

/-- The snapshot of a clone is consistent once a packet was counted. -/
theorem snapshot_consistent {metrics : Metrics} (filled : metrics.latencies ≠ [])
    (counted : metrics.packetCount ≠ 0) :
    (metrics.clone.snapshot id).Consistent metrics.window := by
  have nonempty : 0 < metrics.window.length := List.length_pos_iff.mpr (window_ne_nil filled)
  have length : metrics.window.length = metrics.latencies.length := List.length_map ..
  obtain ⟨average, min_eq, max_eq, answers⟩ := snapshot_clone counted
  obtain ⟨least, found_min, first⟩ := minLatency_spec filled
  obtain ⟨greatest, found_max, last⟩ := maxLatency_spec filled
  have ranked (percentile : Percentile) :
      ∃ value, (metrics.clone.snapshot id).percentile percentile = some value ∧
        HasRank (percentRank metrics.window.length percentile.percent) metrics.window value := by
    have answer := answers percentile
    cases found : (metrics.clone.snapshot id).percentile percentile with
    | none =>
        rw [found] at answer
        exact absurd answer filled
    | some value =>
        rw [found] at answer
        rw [length]
        exact ⟨value, rfl, answer⟩
  have positive (percentile : Percentile) :
      1 ≤ percentRank metrics.window.length percentile.percent :=
    percentRank_pos nonempty percentile.percent_pos
  have within (percentile : Percentile) :
      percentRank metrics.window.length percentile.percent ≤ metrics.window.length :=
    percentRank_le _ percentile.percent_le
  have higher {low high : Percentile} (percents : low.percent ≤ high.percent) :
      percentRank metrics.window.length low.percent ≤
        percentRank metrics.window.length high.percent :=
    percentRank_mono _ percents
  constructor
  · intro percentile
    exact ⟨positive percentile, percentileIndex_lt id nonempty _⟩
  · obtain ⟨v50, found50, rank50⟩ := ranked .p50
    obtain ⟨v95, found95, rank95⟩ := ranked .p95
    obtain ⟨v99, found99, rank99⟩ := ranked .p99
    obtain ⟨v999, found999, rank999⟩ := ranked .p999
    refine ⟨[least, v50, v95, v99, v999, greatest], ?_, ?_⟩
    · rw [min_eq, max_eq, found_min, found_max]
      exact congrArg₂ _ rfl (congrArg₂ _ found50 (congrArg₂ _ found95 (congrArg₂ _ found99
        (congrArg₂ _ found999 rfl))))
    · rw [← List.isChain_iff_pairwise]
      have low := first.mono rank50 (positive .p50)
      have middle := rank50.mono rank95 (higher (by decide +kernel))
      have upper := rank95.mono rank99 (higher (by decide +kernel))
      have tail := rank99.mono rank999 (higher (by decide +kernel))
      have high := rank999.mono last (within .p999)
      simp [low, middle, upper, tail, high]
  · rw [min_eq, max_eq, average, found_min, found_max]
    intro low isLow high isHigh
    cases isLow
    cases isHigh
    exact averageLatency_bounds filled first.le_of_first last.le_of_last
  · exact ranked
  · refine ⟨greatest, max_eq.trans found_max, ?_⟩
    have whole : percentRank metrics.window.length 100 = metrics.window.length := by
      rw [percentRank, mul_div_assoc, div_self (by norm_num), mul_one, Nat.ceil_natCast]
    rw [whole]
    exact last

end Metrics

/-- Whatever the map holds besides, `send_current_metrics` publishes a consistent
snapshot of this session's metrics, if anything is left of their window. -/
def Session.PublishesConsistent (session : Session) : Prop :=
  ∀ (metrics : PriorityTable (Option Metrics)) (priority : Priority) (now : Instant),
    metrics priority = some session.metrics →
    ∃ cleaned snapshot, (sendCurrentMetrics id metrics now).1 priority = some cleaned ∧
      (sendCurrentMetrics id metrics now).2 priority = some snapshot ∧
      (cleaned.latencies ≠ [] → snapshot.Consistent cleaned.window)

/-- A window that is not empty was counted. -/
theorem Session.publishesConsistent {session : Session}
    (counted : session.metrics.packetCount = 0 → session.metrics.latencies = []) :
    session.PublishesConsistent := by
  intro metrics priority now listed
  have cleaned : (sendCurrentMetrics id metrics now).1 priority =
      some (session.metrics.cleanupOldMeasurements now) := by
    simp only [sendCurrentMetrics, listed, Option.map_some]
  have published : (sendCurrentMetrics id metrics now).2 priority =
      some ((session.metrics.cleanupOldMeasurements now).clone.snapshot id) := by
    simp only [sendCurrentMetrics, listed, Option.map_some]
  refine ⟨_, _, cleaned, published, ?_⟩
  intro left
  refine Metrics.snapshot_consistent left fun none_ => left ?_
  exact Session.cleanup_empty (counted none_) now

/-! ## The collector -/

theorem Egress.State.step_clock {state next : Egress.State} {action : Egress.Action}
    (stepped : state.step action = some next) : state.clock ≤ next.clock := by
  cases step_moves stepped with
  | tick elapsed => exact Nat.le_add_right _ _
  | record place room =>
      simp only [recordPacket]
      split <;> exact le_rfl
  | arrive | disconnect | stop | takeEvent | enter | quit | leave | receive | skip | close | measure
  | judge | sent | wouldBlock | failed => exact le_rfl

/-- The metrics are those of a session of calls up to this time. -/
def Metrics.Collected (metrics : Metrics) (priority : Priority) (now : Instant) : Prop :=
  ∃ calls session, run (Session.step id) (.start priority (Metrics.new priority).timeWindow) calls =
    some session ∧ session.metrics = metrics ∧ session.clock ≤ now

theorem Metrics.Collected.record {metrics : Metrics} {priority : Priority} {now : Instant}
    (collected : metrics.Collected priority now) (latency : Duration) (deadlineMissed : Bool) :
    (metrics.recordLatency now latency deadlineMissed).Collected priority now := by
  obtain ⟨calls, session, ran, rfl, forward⟩ := collected
  let recorded : Session := ⟨now, session.metrics.recordLatency now latency deadlineMissed⟩
  refine ⟨calls ++ [.recordLatency now latency deadlineMissed], recorded, ?_, rfl, le_refl now⟩
  rw [run_append, ran]
  simp only [Option.bind_some, run_cons, Session.step, if_pos forward, run_nil, recorded]

namespace MetricsCollector

theorem State.step_collected {state next : State} {action : Action}
    (collected : ∀ priority, ∀ metrics ∈ state.metrics priority,
      metrics.Collected priority state.egress.clock)
    (stepped : state.step action = some next) :
    ∀ priority, ∀ metrics ∈ next.metrics priority,
      metrics.Collected priority next.egress.clock := by
  cases action with
  | egress action =>
      have moved : ∃ egress, state.egress.step action = some egress ∧
          { state with egress } = next := by
        cases action with
        | takeEvent => cases stepped
        | arrive | disconnect | tick | stop | run | sendTo =>
            exact Option.map_eq_some_iff.mp stepped
      obtain ⟨egress, moved, rfl⟩ := moved
      intro priority metrics listed
      obtain ⟨calls, session, ran, same, past⟩ := collected priority metrics listed
      exact ⟨calls, session, ran, same, past.trans (Egress.State.step_clock moved)⟩
  | dropSenders =>
      simp only [step] at stepped
      split at stepped <;> cases stepped
      exact collected
  | processor =>
      cases place : state.processor with
      | collect =>
          simp only [step, processorStep, place] at stepped
          repeat' split at stepped
          all_goals
            cases stepped
            exact collected
      | update events =>
          cases events with
          | nil =>
              simp only [step, processorStep, place, Option.some.injEq] at stepped
              cases stepped
              exact collected
          | cons event rest =>
              simp only [step, processorStep, place, Option.some.injEq] at stepped
              cases stepped
              -- an entry that is not there yet starts a session
              have entry : ((state.metrics event.priority).getD (.new event.priority)).Collected
                  event.priority state.egress.clock := by
                cases found : state.metrics event.priority with
                | none => exact ⟨[], _, rfl, rfl, Nat.zero_le _⟩
                | some metrics => exact collected event.priority metrics found
              refine PriorityTable.forall_set
                (fun priority (entry : Option Metrics) => ∀ metrics ∈ entry,
                  metrics.Collected priority state.egress.clock) collected ?_
              intro metrics same
              cases same
              exact entry.record event.latency event.deadlineMissed
      | returned => simp [step, processorStep, place] at stepped

/-- In every run of the collector each entry of its map is the result of a session. -/
theorem collected_throughout (receivers : PriorityTable (Channel Packet))
    (socketMap : PriorityTable (Option (List Egress.Socket))) (actions : List Action) :
    Throughout State.step
      (fun state => ∀ priority, ∀ metrics ∈ state.metrics priority,
        metrics.Collected priority state.egress.clock)
      (.start receivers socketMap) actions :=
  throughout_invariant State.step_collected id (by simp [State.start]) actions

end MetricsCollector

/-- In every session, what is published of a non-empty window is consistent. -/
theorem published_statistics_consistent (priority : Priority) (timeWindow : Duration)
    (calls : List Call) :
    Throughout (Session.step id) Session.PublishesConsistent (.start priority timeWindow) calls :=
  throughout_recorded.mp (throughout_invariant Session.step_tracked
    (fun tracked => Session.publishesConsistent tracked.counted)
    (Session.start_tracked id priority timeWindow) calls)

/-- Three measurements, published at the end of their window. -/
example :
    ((run (Session.step id) (.start .high (Metrics.new .high).timeWindow)
      [.recordLatency 10000000000 300 true, .recordLatency 10000000000 100 false,
        .recordLatency 15000000000 200 false]).bind fun session =>
      (sendCurrentMetrics id (fun _ => some session.metrics) 20000000000).2 .high).map
        (fun snapshot => ([snapshot.minLatency, snapshot.p50, snapshot.p95, snapshot.p100],
          snapshot.avgLatency, snapshot.stdDev)) =
      some ([some 100, some 200, some 300, some 300], 200, some 82) := by
  decide +kernel

end EdfPipeline
