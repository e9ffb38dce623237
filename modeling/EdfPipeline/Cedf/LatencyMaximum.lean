import EdfPipeline.Cedf.Moves
import EdfPipeline.Library.TransitionSystem
import Mathlib.Data.List.DropRight
import Mathlib.Order.Bounds.Basic

/-!
# The largest latency of the window

A latency tracker keeps its last latencies and the largest of them. It looks for a
new maximum only when a latency as large as the maximum leaves the window.
-/

set_option autoImplicit false

namespace EdfPipeline.Cedf

open TransitionSystem

namespace LatencyTracker

/-- The number a latency is recorded as. -/
def latencyUs (latency : Duration) : Nat := latency.asMicros % wordBound

def recordAll (tracker : LatencyTracker) (latencies : List Duration) : LatencyTracker :=
  latencies.foldl recordLatency tracker

/-- After these calls the tracker has the last 1000 latencies and the largest of them. -/
structure Windowed (calls : List Duration) (tracker : LatencyTracker) : Prop where
  window : tracker.latencies = (calls.map latencyUs).rtake 1000
  maximum : IsGreatest {recorded | recorded ∈ tracker.latencies} tracker.maxLatencyUs
  p100 : IsGreatest {latency | ∃ recorded ∈ tracker.latencies, latency = Duration.fromMicros recorded}
    tracker.getP100

theorem trim_window (windowSize : Nat) (latencies : List Nat) (maxLatency : Nat) :
    (trim windowSize latencies maxLatency).1 = latencies.rtake windowSize := by
  induction latencies generalizing maxLatency with
  | nil => exact (List.rtake_nil windowSize).symm
  | cons removed rest ih =>
      unfold trim
      split
      · rename_i longer
        rw [ih, List.rtake, List.rtake, List.length_cons, Nat.succ_sub (Nat.le_of_lt_succ longer),
          List.drop_succ_cons]
      · rename_i fits
        rw [List.rtake, List.length_cons, Nat.sub_eq_zero_of_le (Nat.le_of_not_lt fits),
          List.drop_zero]

/-- Only if the maximum leaves the window is another one found. -/
theorem max_of_rest {removed maxLatency : Nat} {rest : List Nat} (left : rest ≠ [])
    (maximum : (removed :: rest).max? = some maxLatency) :
    rest.max? = some (if removed = maxLatency then rest.max?.getD 0 else maxLatency) := by
  obtain ⟨largest, found⟩ := Option.ne_none_iff_exists'.mp (mt List.max?_eq_none_iff.mp left)
  rw [List.max?_cons, found] at maximum
  have both : max removed largest = maxLatency := Option.some.inj maximum
  rw [found]
  split
  · rfl
  · rename_i other
    congr 1
    omega

theorem trim_max {windowSize : Nat} (positive : 0 < windowSize) {latencies : List Nat}
    {maxLatency : Nat} (maximum : latencies.max? = some maxLatency) :
    (trim windowSize latencies maxLatency).1.max? =
      some (trim windowSize latencies maxLatency).2 := by
  induction latencies generalizing maxLatency with
  | nil => exact maximum
  | cons removed rest ih =>
      unfold trim
      split
      · rename_i longer
        have left : rest ≠ [] := by
          intro empty
          simp only [empty, List.length_nil] at longer
          omega
        exact ih (max_of_rest left maximum)
      · exact maximum

/-- Cutting back to the window twice is cutting back once. -/
theorem rtake_concat {size : Nat} (recorded : List Nat) (latency : Nat) :
    (recorded.rtake size ++ [latency]).rtake size = (recorded ++ [latency]).rtake size := by
  cases size with
  | zero => rw [List.rtake_zero, List.rtake_zero]
  | succ size =>
      rw [List.rtake_concat_succ, List.rtake_concat_succ, List.rtake_eq_reverse_take_reverse,
        List.rtake_eq_reverse_take_reverse, List.rtake_eq_reverse_take_reverse,
        List.reverse_reverse, List.take_take, Nat.min_eq_left (Nat.le_succ size)]

/-- What holds of a tracker that has recorded these numbers, if any. -/
structure Tracks (recorded : List Nat) (tracker : LatencyTracker) : Prop where
  windowSize : tracker.windowSize = 1000
  window : tracker.latencies = recorded.rtake 1000
  maximum : tracker.maxLatencyUs = tracker.latencies.max?.getD 0

theorem new_tracks : Tracks [] .new := ⟨rfl, rfl, rfl⟩

/-- With a new latency the maximum is the larger of the two. -/
theorem max_concat (latencies : List Nat) (latency : Nat) :
    (latencies ++ [latency]).max? = some (max (latencies.max?.getD 0) latency) := by
  induction latencies with
  | nil => simp
  | cons first rest ih =>
      rw [List.cons_append, List.max?_cons, List.max?_cons, ih]
      cases rest.max? with
      | none => simp
      | some largest => simp [max_assoc]

/-- The history and the maximum before the window is cut back. -/
theorem max_pushed (tracker : LatencyTracker)
    (maximum : tracker.maxLatencyUs = tracker.latencies.max?.getD 0) (latency : Nat) :
    (tracker.latencies ++ [latency]).max? =
      some (if latency > tracker.maxLatencyUs then latency else tracker.maxLatencyUs) := by
  rw [max_concat, ← maximum]
  congr 1
  split <;> omega

theorem Tracks.recordLatency {recorded : List Nat} {tracker : LatencyTracker}
    (tracks : Tracks recorded tracker) (latency : Duration) :
    Tracks (recorded ++ [latencyUs latency]) (tracker.recordLatency latency) ∧
      (tracker.recordLatency latency).latencies.max? =
        some (tracker.recordLatency latency).maxLatencyUs := by
  obtain ⟨size, window, maximum⟩ := tracks
  have positive : 0 < tracker.windowSize := size ▸ Nat.succ_pos 999
  have kept : (tracker.recordLatency latency).latencies.max? =
      some (tracker.recordLatency latency).maxLatencyUs :=
    trim_max positive (max_pushed tracker maximum (latencyUs latency))
  refine ⟨⟨size, ?_, ?_⟩, kept⟩
  · have cut : (tracker.recordLatency latency).latencies =
        (tracker.latencies ++ [latencyUs latency]).rtake tracker.windowSize :=
      trim_window ..
    rw [cut, size, window, rtake_concat]
  · rw [kept]
    rfl

theorem recordAll_concat (tracker : LatencyTracker) (earlier : List Duration) (latency : Duration) :
    tracker.recordAll (earlier ++ [latency]) = (tracker.recordAll earlier).recordLatency latency := by
  rw [recordAll, List.foldl_append]
  rfl

theorem recordAll_tracks (latencies : List Duration) :
    Tracks (latencies.map latencyUs) (recordAll .new latencies) := by
  induction latencies using List.reverseRecOn with
  | nil => exact new_tracks
  | append_singleton earlier latency ih =>
      rw [recordAll_concat, List.map_append]
      exact (ih.recordLatency latency).1

theorem Tracks.windowed {calls : List Duration} {tracker : LatencyTracker}
    (tracks : Tracks (calls.map latencyUs) tracker)
    (maximum : tracker.latencies.max? = some tracker.maxLatencyUs) : Windowed calls tracker := by
  have greatest : IsGreatest {recorded | recorded ∈ tracker.latencies} tracker.maxLatencyUs :=
    List.max?_eq_some_iff.mp maximum
  refine ⟨tracks.window, greatest, ⟨_, greatest.1, rfl⟩, ?_⟩
  rintro _ ⟨recorded, member, rfl⟩
  exact Nat.mul_le_mul_right _ (greatest.2 member)

theorem recordAll_windowed {latencies : List Duration} (some_call : latencies ≠ []) :
    Windowed latencies (recordAll .new latencies) := by
  cases latencies using List.reverseRecOn with
  | nil => exact absurd rfl some_call
  | append_singleton earlier latency =>
      obtain ⟨tracks, maximum⟩ := (recordAll_tracks earlier).recordLatency latency
      rw [recordAll_concat]
      refine Tracks.windowed ?_ maximum
      rw [List.map_append]
      exact tracks

/-- After each call the tracker has the last latencies and the largest of them. -/
theorem maximum_of_window (earlier : List Duration) (latency : Duration) :
    Windowed (earlier ++ [latency]) (recordAll .new (earlier ++ [latency])) :=
  recordAll_windowed (List.append_ne_nil_of_right_ne_nil earlier (List.cons_ne_nil latency []))

end LatencyTracker

/-! ## The trackers of a run -/

namespace State

variable {n : Nat}

/-- The latency a worker records in STEP 3.5 for a packet of this class. -/
def latencyRecorded (priority : Priority) (state : State n) : Action n → Option Duration
  | .run id =>
      match state.workers id with
      | .record job observedLatency =>
          if job.finalPriority = priority then some observedLatency else none
      | _ => none
  | _ => none

/-- The two trackers, which all workers share. -/
def TrackedClass (priority : Priority) : Prop := priority = .medium ∨ priority = .low

theorem record_tracker (state : State n) {priority : Priority} (tracked : TrackedClass priority)
    (finalPriority : Priority) (latency : Duration) :
    (state.record finalPriority latency).tracker priority = (state.tracker priority).recordAll
      (if finalPriority = priority then some latency else none).toList := by
  obtain rfl | rfl := tracked <;> cases finalPriority <;> rfl

theorem WorkerMove.tracker {state next : State n} {id : Fin n} {priority : Priority}
    (move : WorkerMove state id next) (tracked : TrackedClass priority) :
    next.tracker priority =
      (state.tracker priority).recordAll (state.latencyRecorded priority (.run id)).toList := by
  cases move with
  | record place recorded =>
      simp only [latencyRecorded, place, ← record_tracker state tracked, recorded]
      rfl
  | guard place guarding =>
      cases guarding <;> simp only [latencyRecorded, place] <;> rfl
  | slice place processes =>
      cases processes <;> simp only [latencyRecorded, place] <;> rfl
  | top place | idle place | guardReceive place | guardReceived place | guardDisplace place
  | process place | receive place | received place | displace place | restart place | done place
  | finish place | complete place =>
      simp only [latencyRecorded, place]
      rfl

theorem step_tracker {state next : State n} {action : Action n} {priority : Priority}
    (tracked : TrackedClass priority) (stepped : state.step action = some next) :
    next.tracker priority =
      (state.tracker priority).recordAll (state.latencyRecorded priority action).toList := by
  cases step_moves stepped with
  | run move => exact move.tracker tracked
  | dispatch move =>
      obtain ⟨_, _, _, _, rfl⟩ := move.frame
      rfl
  | arrive | disconnect | tick | stop | pop | forward => rfl

/-- The trackers hold what all workers recorded, in this order. -/
def TrackersRecord (history : State n × Past (State n) (Action n)) : Prop :=
  ∀ priority, TrackedClass priority →
    history.1.tracker priority = .recordAll .new (observed (latencyRecorded priority) history.2)

theorem step_trackersRecord {history next : State n × Past (State n) (Action n)} {action : Action n}
    (records : TrackersRecord history) (stepped : recorded step history action = some next) :
    TrackersRecord next := by
  obtain ⟨state, past⟩ := history
  obtain ⟨after, later⟩ := next
  obtain ⟨moved, rfl⟩ := recorded_eq_some.mp stepped
  intro priority tracked
  rw [step_tracker tracked moved, records priority tracked, observed_append]
  simp only [LatencyTracker.recordAll, List.foldl_append]

/-- However the workers take turns, a tracker that has recorded anything has the
largest of the last latencies recorded for its class. -/
theorem trackers_windowed (actions : List (Action n)) :
    Throughout (recorded step) (fun history => ∀ priority, TrackedClass priority →
      observed (latencyRecorded priority) history.2 ≠ [] →
        (history.1.tracker priority).Windowed (observed (latencyRecorded priority) history.2))
      (initial n, []) actions := by
  have start : TrackersRecord (initial n, []) := by
    intro priority tracked
    obtain rfl | rfl := tracked <;> rfl
  refine throughout_invariant step_trackersRecord ?_ start actions
  intro history records priority tracked some_call
  rw [records priority tracked]
  exact LatencyTracker.recordAll_windowed some_call

end State

end EdfPipeline.Cedf
