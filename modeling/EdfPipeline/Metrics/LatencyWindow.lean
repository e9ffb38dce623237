import EdfPipeline.Metrics.Statistics

/-!
# The latency window

A call keeps the measurements that are no older than the window, as long as the
clock can be set back by the window. Where it cannot, the cutoff is the reading
of the clock itself.
-/

set_option autoImplicit false

namespace EdfPipeline

open TransitionSystem

/-- On a list sorted by key, what does not leave from the front stays altogether. -/
theorem dropWhile_lt_eq_filter {α : Type} {key : α → Nat} {items : List α}
    (ordered : items.Pairwise fun earlier later => key earlier ≤ key later) (bound : Nat) :
    (items.dropWhile fun item => key item < bound) = items.filter fun item => bound ≤ key item := by
  induction items with
  | nil => rfl
  | cons first rest ih =>
      obtain ⟨least, tail⟩ := List.pairwise_cons.mp ordered
      by_cases leaves : key first < bound
      · rw [List.dropWhile_cons_of_pos (by simpa using leaves),
          List.filter_cons_of_neg (by simpa using leaves)]
        exact ih tail
      · have stays : bound ≤ key first := not_lt.mp leaves
        rw [List.dropWhile_cons_of_neg (by simpa using stays), eq_comm, List.filter_eq_self]
        intro item member
        rcases List.mem_cons.mp member with rfl | later
        · exact decide_eq_true stays
        · exact decide_eq_true (stays.trans (least item later))

/-- The age of a measurement is within the window. -/
def LatencyMeasurement.Fresh (measurement : LatencyMeasurement) (now : Instant)
    (timeWindow : Duration) : Prop :=
  now - measurement.timestamp ≤ timeWindow

instance (measurement : LatencyMeasurement) (now : Instant) (timeWindow : Duration) :
    Decidable (measurement.Fresh now timeWindow) :=
  inferInstanceAs (Decidable (_ ≤ timeWindow))

/-- What is fresh at a reading was fresh at every earlier one. -/
theorem cutoff_iff {clock now timestamp timeWindow : Nat} (forward : clock ≤ now)
    (before : timestamp ≤ now) (reaches : timeWindow ≤ now) :
    now - timeWindow ≤ timestamp ∧ clock - timestamp ≤ timeWindow ↔
      now - timestamp ≤ timeWindow := by
  omega

theorem fresh_of_early {now timestamp timeWindow : Nat} (early : ¬ timeWindow ≤ now) :
    now - timestamp ≤ timeWindow := by
  omega

namespace Metrics

/-- Evicting from the fresh measurements of an earlier reading leaves those still
fresh exactly if the clock can be set back or nothing is older than its reading. -/
theorem evict_fresh_iff {all : List LatencyMeasurement} {clock now : Instant}
    (timeWindow : Duration)
    (ordered : all.Pairwise fun earlier later => earlier.timestamp ≤ later.timestamp)
    (past : ∀ measurement ∈ all, measurement.timestamp ≤ now) (forward : clock ≤ now) :
    evict (all.filter (·.Fresh clock timeWindow)) now timeWindow =
        all.filter (·.Fresh now timeWindow) ↔
      timeWindow ≤ now ∨ ∀ measurement ∈ all, now ≤ measurement.timestamp := by
  have evicted := dropWhile_lt_eq_filter (ordered.filter (·.Fresh clock timeWindow))
    ((Instant.checkedSub now timeWindow).getD now)
  rw [evict, evicted, List.filter_filter]
  by_cases reaches : timeWindow ≤ now
  · -- the cutoff is the reading set back by the window
    refine iff_of_true (List.filter_congr fun measurement member => ?_) (.inl reaches)
    rw [← Bool.decide_and]
    refine decide_eq_decide.mpr ?_
    simp only [Instant.checkedSub, if_pos reaches, Option.getD_some]
    exact cutoff_iff forward (past measurement member) reaches
  · -- everything is fresh, and only what is as recent as the reading stays
    have allFresh : all.filter (·.Fresh now timeWindow) = all :=
      List.filter_eq_self.mpr fun _ _ => decide_eq_true (fresh_of_early reaches)
    rw [allFresh, List.filter_eq_self]
    simp only [Instant.checkedSub, if_neg reaches, Option.getD_none, Bool.and_eq_true,
      decide_eq_true_eq]
    constructor
    · intro kept
      exact .inr fun measurement member => (kept measurement member).1
    · rintro (set_back | recent) measurement member
      · exact absurd set_back reaches
      · have early : ¬ timeWindow ≤ clock := fun set_back => reaches (set_back.trans forward)
        exact ⟨recent measurement member, fresh_of_early early⟩

end Metrics

namespace Session

/-- The measurement a call records. -/
def recording (_ : Session) : Call → Option LatencyMeasurement
  | .recordLatency now latency _ => some { latency, timestamp := now }
  | _ => none

/-- The window holds what was recorded and is fresh at the last reading of the clock. -/
def WindowExact (history : Session × Past Session Call) : Prop :=
  history.1.metrics.latencies = (observed recording history.2).filter
    (·.Fresh history.1.clock history.1.metrics.timeWindow)

instance (history : Session × Past Session Call) : Decidable (WindowExact history) :=
  inferInstanceAs (Decidable (_ = List.filter _ _))

/-- At a reading the window cannot be subtracted from, nothing was recorded before. -/
def ReachesBack (history : Session × Past Session Call) : Call → Prop
  | .recordLatency now _ _ | .cleanupOldMeasurements now =>
      history.1.clock ≤ now → history.1.metrics.timeWindow ≤ now ∨
        ∀ measurement ∈ observed recording history.2, now ≤ measurement.timestamp
  | _ => True

/-- Recording times never decrease and are not in the future. -/
structure Timed (history : Session × Past Session Call) : Prop where
  ordered : (observed recording history.2).Pairwise
    fun earlier later => earlier.timestamp ≤ later.timestamp
  past : ∀ measurement ∈ observed recording history.2, measurement.timestamp ≤ history.1.clock

theorem Timed.record {history : Session × Past Session Call} (timed : Timed history)
    {now : Instant} (forward : history.1.clock ≤ now) (latency : Duration) :
    (observed recording history.2 ++ [LatencyMeasurement.mk latency now]).Pairwise
        (fun earlier later => earlier.timestamp ≤ later.timestamp) ∧
      ∀ measurement ∈ observed recording history.2 ++ [LatencyMeasurement.mk latency now],
        measurement.timestamp ≤ now := by
  have before (measurement : LatencyMeasurement)
      (member : measurement ∈ observed recording history.2) : measurement.timestamp ≤ now :=
    (timed.past measurement member).trans forward
  constructor
  · refine List.pairwise_append.mpr ⟨timed.ordered, List.pairwise_singleton _ _, ?_⟩
    intro measurement member latest same
    rw [List.mem_singleton.mp same]
    exact before measurement member
  · intro measurement member
    rcases List.mem_append.mp member with earlier | latest
    · exact before measurement earlier
    · rw [List.mem_singleton.mp latest]

variable {rounding : ℚ → ℚ}

theorem step_timed {history next : Session × Past Session Call} {call : Call}
    (timed : Timed history) (stepped : recorded (step rounding) history call = some next) : Timed next := by
  obtain ⟨session, past⟩ := history
  obtain ⟨after, later⟩ := next
  obtain ⟨moved, rfl⟩ := recorded_eq_some.mp stepped
  cases call with
  | recordLatency now latency deadlineMissed =>
      simp only [step] at moved
      split at moved
      · rename_i forward
        cases moved
        obtain ⟨ordered, before⟩ := timed.record forward latency
        constructor
        · rwa [observed_append]
        · rwa [observed_append]
      · cases moved
  | cleanupOldMeasurements now =>
      simp only [step] at moved
      split at moved
      · rename_i forward
        cases moved
        constructor
        · rw [observed_none rfl]
          exact timed.ordered
        · rw [observed_none rfl]
          intro measurement member
          exact (timed.past measurement member).trans forward
      · cases moved
  | clone followed =>
      cases followed
      all_goals
        cases moved
        constructor
        · rw [observed_none rfl]
          exact timed.ordered
        · rw [observed_none rfl]
          exact timed.past
  | query percentile =>
      cases moved
      constructor
      · rw [observed_none rfl]
        exact timed.ordered
      · rw [observed_none rfl]
        exact timed.past

theorem step_exact_iff {history next : Session × Past Session Call} {call : Call}
    (timed : Timed history) (exact_ : WindowExact history)
    (stepped : recorded (step rounding) history call = some next) :
    WindowExact next ↔ ReachesBack history call := by
  obtain ⟨session, past⟩ := history
  obtain ⟨after, later⟩ := next
  obtain ⟨moved, rfl⟩ := recorded_eq_some.mp stepped
  cases call with
  | recordLatency now latency deadlineMissed =>
      simp only [step] at moved
      split at moved
      · rename_i forward
        cases moved
        obtain ⟨ordered, before⟩ := timed.record forward latency
        have joined : session.metrics.latencies ++ [LatencyMeasurement.mk latency now] =
            (observed recording past ++ [LatencyMeasurement.mk latency now]).filter
              (·.Fresh session.clock session.metrics.timeWindow) := by
          have fresh : LatencyMeasurement.Fresh (LatencyMeasurement.mk latency now) session.clock
              session.metrics.timeWindow :=
            (Nat.sub_eq_zero_of_le forward).le.trans (Nat.zero_le _)
          rw [List.filter_append, ← exact_]
          simp [fresh]
        have evicted := Metrics.evict_fresh_iff session.metrics.timeWindow
          ordered before forward
        rw [← joined] at evicted
        rw [WindowExact, observed_append]
        refine evicted.trans ?_
        constructor
        · rintro (reaches | recent) _
          · exact .inl reaches
          · exact .inr fun measurement member => recent measurement (List.mem_append_left _ member)
        · intro guarded
          rcases guarded forward with reaches | recent
          · exact .inl reaches
          · refine .inr ?_
            intro measurement member
            rcases List.mem_append.mp member with earlier | latest
            · exact recent measurement earlier
            · rw [List.mem_singleton.mp latest]
      · cases moved
  | cleanupOldMeasurements now =>
      simp only [step] at moved
      split at moved
      · rename_i forward
        cases moved
        have before (measurement : LatencyMeasurement)
            (member : measurement ∈ observed recording past) : measurement.timestamp ≤ now :=
          (timed.past measurement member).trans forward
        have evicted := Metrics.evict_fresh_iff session.metrics.timeWindow
          timed.ordered before forward
        rw [← exact_] at evicted
        rw [WindowExact, observed_none rfl]
        refine evicted.trans ?_
        constructor
        · intro guarded _
          exact guarded
        · intro guarded
          exact guarded forward
      · cases moved
  | clone followed =>
      cases followed
      all_goals
        cases moved
        refine iff_of_true ?_ trivial
        rw [WindowExact, observed_none rfl]
        exact exact_
  | query percentile =>
      cases moved
      refine iff_of_true ?_ trivial
      obtain ⟨latencies, _, window⟩ := session.metrics.compute_frame rounding
      rw [WindowExact, observed_none rfl, Metrics.query_eq, latencies, window]
      exact exact_

theorem reachesBack_of_disabled {history : Session × Past Session Call} {call : Call}
    (disabled : recorded (step rounding) history call = none) : ReachesBack history call := by
  obtain ⟨session, past⟩ := history
  rw [recorded, Option.map_eq_none_iff] at disabled
  cases call with
  | recordLatency now latency deadlineMissed | cleanupOldMeasurements now =>
      intro forward
      simp [step, forward] at disabled
  | clone followed | query percentile => trivial

end Session

theorem Session.start_exact (priority : Priority) (timeWindow : Duration) :
    Session.WindowExact (.start priority timeWindow, []) := by
  rw [Session.WindowExact, observed]
  rfl

theorem Session.start_timed (priority : Priority) (timeWindow : Duration) :
    Session.Timed (.start priority timeWindow, []) :=
  ⟨List.Pairwise.nil, by simp [observed]⟩

/-- The window is exact after every call exactly if no call is made, later than the
first recording, at a reading the window cannot be subtracted from. -/
theorem windowExact_iff_reaches_back (priority : Priority) (timeWindow : Duration)
    (calls : List Call) :
    Throughout (recorded (Session.step Binary64.nearest)) Session.WindowExact
        (.start priority timeWindow, []) calls ↔
      Along (recorded (Session.step Binary64.nearest)) Session.ReachesBack
        (.start priority timeWindow, []) calls :=
  throughout_iff_along Session.step_timed Session.step_exact_iff Session.reachesBack_of_disabled
    (Session.start_timed priority timeWindow) (Session.start_exact priority timeWindow) calls

/-- Two packets are recorded in the first seconds of the clock. -/
def earlyCalls : List Call :=
  [.recordLatency (Duration.fromMillis 1) 500 false, .recordLatency (Duration.fromMillis 2) 700 false]

/-- The first measurement is gone after a millisecond. -/
theorem fresh_measurement_evicted :
    ¬ Throughout (recorded (Session.step Binary64.nearest)) Session.WindowExact
      (.start .high (Metrics.new .high).timeWindow, []) earlyCalls := by
  decide +kernel

end EdfPipeline
