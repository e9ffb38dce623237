import EdfPipeline.Metrics.Statistics

/-!
# The percentile cache

A query fills the cache unless no packet was counted since the last one. A
cleanup after a query clears the cached values but not the count they are tracked
by, so the next query finds them missing. A clone starts with a cache of its own
and leaves that of the original as it is.
-/

set_option autoImplicit false

namespace EdfPipeline

open TransitionSystem

/-- What the calls since the last recording, or since the value was made by `clone`,
have done to the cache. -/
inductive CacheUse where
  | unused
  | queried
  | cleared
  deriving DecidableEq, Repr

def CacheUse.after : CacheUse → Call → CacheUse
  | _, .recordLatency _ _ _ | _, .clone .clone => .unused
  | .unused, .query _ => .queried
  | .queried, .cleanupOldMeasurements _ => .cleared
  | use, _ => use

/-- The cache was queried and then cleared, with no recording since the query, of a
value that was there at the query. -/
def cacheUse (past : Past Session Call) : CacheUse :=
  past.foldl (fun use entry => use.after entry.2) .unused

theorem cacheUse_append (past : Past Session Call) (session : Session) (call : Call) :
    cacheUse (past ++ [(session, call)]) = (cacheUse past).after call := by
  rw [cacheUse, List.foldl_append]
  rfl

namespace Session

/-- Every query returns the percentile it asks for. -/
def AnswersRight (history : Session × Past Session Call) : Call → Prop
  | .query percentile =>
      Metrics.Answers history.1.metrics.latencies percentile
        (history.1.metrics.query Binary64.nearest percentile).1
  | _ => True

instance (history : Session × Past Session Call) (call : Call) :
    Decidable (AnswersRight history call) :=
  match call with
  | .query _ => inferInstanceAs (Decidable (Metrics.Answers _ _ _))
  | .recordLatency _ _ _ | .cleanupOldMeasurements _ | .clone _ => inferInstanceAs (Decidable True)

/-- No query comes after a cleanup of a cache that is in use, unless the window is
empty, and double precision does not miss the percentile. -/
def FindsPercentile (history : Session × Past Session Call) : Call → Prop
  | .query percentile =>
      (cacheUse history.2 = .cleared → history.1.metrics.latencies = []) ∧
        Metrics.RankFound Binary64.nearest history.1.metrics percentile
  | _ => True

/-- The cached values for each use of the cache. -/
def CacheState (rounding : ℚ → ℚ) (metrics : Metrics) : CacheUse → Prop
  | .unused =>
      metrics.cachedPacketCount = metrics.packetCount →
        metrics.latencies = [] ∧ ∀ percentile, metrics.cached percentile = none
  | .queried =>
      metrics.cachedPacketCount = metrics.packetCount ∧
        ∀ percentile, metrics.cached percentile =
          Metrics.percentile rounding metrics.sorted percentile.percent
  | .cleared =>
      metrics.cachedPacketCount = metrics.packetCount ∧
        ∀ percentile, metrics.cached percentile = none

structure Tracked (rounding : ℚ → ℚ) (history : Session × Past Session Call) : Prop where
  behind : history.1.metrics.cachedPacketCount ≤ history.1.metrics.packetCount
  counted : history.1.metrics.packetCount = 0 → history.1.metrics.latencies = []
  cache : CacheState rounding history.1.metrics (cacheUse history.2)

theorem cleanup_empty {metrics : Metrics} (empty : metrics.latencies = []) (now : Instant) :
    (metrics.cleanupOldMeasurements now).latencies = [] := by
  simp only [Metrics.cleanupOldMeasurements, Metrics.clearCache, empty]
  rfl

section Caches

variable {rounding : ℚ → ℚ} {metrics : Metrics} {use : CacheUse}

theorem CacheState.cleanup (state : CacheState rounding metrics use) (now : Instant) :
    CacheState rounding (metrics.cleanupOldMeasurements now)
      (use.after (.cleanupOldMeasurements now)) := by
  have missing := Metrics.cached_clearCache
    { metrics with latencies := Metrics.evict metrics.latencies now metrics.timeWindow }
  cases use with
  | unused =>
      intro same
      exact ⟨cleanup_empty (state same).1 now, missing⟩
  | queried | cleared => exact ⟨state.1, missing⟩

theorem CacheState.query (state : CacheState rounding metrics use) (percentile : Percentile) :
    CacheState rounding (metrics.query rounding percentile).2 (use.after (.query percentile)) := by
  rw [Metrics.query_eq]
  by_cases same : metrics.cachedPacketCount = metrics.packetCount
  · have unchanged : metrics.computeAndCachePercentiles rounding = metrics := if_pos same
    rw [unchanged]
    cases use with
    | unused =>
        obtain ⟨empty, missing⟩ := state same
        refine ⟨same, ?_⟩
        intro other
        rw [missing other, Metrics.sorted_eq_nil empty]
        rfl
    | queried | cleared => exact state
  · cases use with
    | unused =>
        obtain ⟨latencies, count, _⟩ := metrics.compute_frame rounding
        have sorted : (metrics.computeAndCachePercentiles rounding).sorted = metrics.sorted := by
          rw [Metrics.sorted, latencies, Metrics.sorted]
        refine ⟨?_, ?_⟩
        · rw [count]
          exact (Metrics.compute_cached rounding same percentile).1
        · intro other
          rw [sorted]
          exact (Metrics.compute_cached rounding same other).2
    | queried | cleared => exact absurd state.1 same

/-- A query is answered right in every use of the cache but one, if its rank is. -/
theorem CacheState.answers_iff (state : CacheState rounding metrics use) (percentile : Percentile) :
    Metrics.Answers metrics.latencies percentile (metrics.query rounding percentile).1 ↔
      (use = .cleared → metrics.latencies = []) ∧
        Metrics.RankFound rounding metrics percentile := by
  rw [Metrics.query_eq]
  by_cases same : metrics.cachedPacketCount = metrics.packetCount
  · have unchanged : metrics.computeAndCachePercentiles rounding = metrics := if_pos same
    rw [unchanged]
    cases use with
    | unused =>
        obtain ⟨empty, missing⟩ := state same
        rw [missing percentile]
        exact iff_of_true empty
          ⟨fun _ => empty, Metrics.rankFound_of_empty rounding empty percentile⟩
    | queried =>
        rw [state.2 percentile, Metrics.percentile_answers_iff]
        exact (and_iff_right (by simp)).symm
    | cleared =>
        rw [state.2 percentile]
        constructor
        · intro empty
          exact ⟨fun _ => empty, Metrics.rankFound_of_empty rounding empty percentile⟩
        · exact fun found => found.1 rfl
  · rw [(Metrics.compute_cached rounding same percentile).2, Metrics.percentile_answers_iff]
    refine (and_iff_right ?_).symm
    intro cleared
    subst cleared
    exact absurd state.1 same

end Caches

theorem step_tracked {rounding : ℚ → ℚ} {history next : Session × Past Session Call} {call : Call}
    (tracked : Tracked rounding history)
    (stepped : recorded (step rounding) history call = some next) : Tracked rounding next := by
  obtain ⟨session, past⟩ := history
  obtain ⟨after, later⟩ := next
  obtain ⟨moved, rfl⟩ := recorded_eq_some.mp stepped
  obtain ⟨behind, counted, cache⟩ := tracked
  cases call with
  | recordLatency now latency deadlineMissed =>
      simp only [step] at moved
      split at moved
      · cases moved
        refine ⟨Nat.le_succ_of_le behind, fun none_ => absurd none_ (Nat.succ_ne_zero _), ?_⟩
        rw [cacheUse_append]
        -- the packet that was just counted makes the cache outdated
        intro same
        exact absurd (same ▸ behind) (Nat.not_succ_le_self _)
      · cases moved
  | cleanupOldMeasurements now =>
      simp only [step] at moved
      split at moved
      · cases moved
        refine ⟨behind, fun none_ => cleanup_empty (counted none_) now, ?_⟩
        rw [cacheUse_append]
        exact cache.cleanup now
      · cases moved
  | clone followed =>
      cases followed with
      | original =>
          cases moved
          refine ⟨behind, counted, ?_⟩
          rw [cacheUse_append]
          cases use : cacheUse past <;> exact use ▸ cache
      | clone =>
          cases moved
          refine ⟨Nat.zero_le _, counted, ?_⟩
          rw [cacheUse_append]
          intro same
          exact ⟨counted same.symm, session.metrics.cached_clearCache⟩
  | query percentile =>
      cases moved
      obtain ⟨latencies, count, _⟩ := session.metrics.compute_frame rounding
      refine ⟨?_, ?_, ?_⟩
      · rw [Metrics.query_eq, count]
        by_cases same : session.metrics.cachedPacketCount = session.metrics.packetCount
        · have unchanged : session.metrics.computeAndCachePercentiles rounding = session.metrics :=
            if_pos same
          rw [unchanged]
          exact behind
        · exact (Metrics.compute_cached rounding same percentile).1.le
      · intro none_
        rw [Metrics.query_eq] at none_ ⊢
        rw [latencies]
        exact counted (count ▸ none_)
      · rw [cacheUse_append]
        exact cache.query percentile

theorem start_tracked (rounding : ℚ → ℚ) (priority : Priority) (timeWindow : Duration) :
    Tracked rounding (.start priority timeWindow, []) where
  behind := le_rfl
  counted _ := rfl
  cache _ := ⟨rfl, fun percentile => by cases percentile <;> rfl⟩

theorem answersRight_iff {history : Session × Past Session Call} {call : Call}
    (tracked : Tracked Binary64.nearest history) :
    AnswersRight history call ↔ FindsPercentile history call := by
  cases call with
  | recordLatency now latency deadlineMissed => exact Iff.rfl
  | cleanupOldMeasurements now => exact Iff.rfl
  | clone followed => exact Iff.rfl
  | query percentile => exact tracked.cache.answers_iff percentile

end Session

/-- A query, a cleanup that evicts nothing, a clone and the same query again. -/
def queryTwice (followed : Followed) : List Call :=
  [.recordLatency (Duration.fromMillis 20000) 500 false, .query .p50,
    .cleanupOldMeasurements (Duration.fromMillis 20000), .clone followed, .query .p50]

/-- The clone answers, its cache being new. -/
example : Along (recorded (Session.step Binary64.nearest)) Session.AnswersRight
    (.start .high (Metrics.new .high).timeWindow, []) (queryTwice .clone) := by
  decide +kernel

end EdfPipeline
