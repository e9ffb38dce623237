import EdfPipeline.Pipeline.StatisticsThread

/-!
# The curves of the GUI

For each class the GUI keeps the points of its curves: one for a report that
comes more than 50 ms after the last point, and no more than a fixed number,
the oldest going first.
-/

set_option autoImplicit false

namespace EdfPipeline.Gui

structure StatisticsPoint where
  time : Duration
  avg : ℚ
  min : Duration
  max : Duration
  p50 : Duration
  p95 : Duration
  p99 : Duration
  p100 : Duration
  stdDev : Duration
  ingressDrops : Nat
  edfHeapDrops : Nat
  edfOutputDrops : Nat
  totalDrops : Nat
  deriving DecidableEq

def StatisticsPoint.of (elapsed : Duration) (snapshot : FlowSnapshot) : StatisticsPoint where
  time := elapsed
  avg := snapshot.statistics.avgLatency
  min := snapshot.statistics.minLatency.getD 0
  max := snapshot.statistics.maxLatency.getD 0
  p50 := snapshot.statistics.p50.getD 0
  p95 := snapshot.statistics.p95.getD 0
  p99 := snapshot.statistics.p99.getD 0
  p100 := snapshot.statistics.p100.getD 0
  stdDev := snapshot.statistics.stdDev.getD 0
  ingressDrops := snapshot.ingressDrops
  edfHeapDrops := snapshot.edfHeapDrops
  edfOutputDrops := snapshot.edfOutputDrops
  totalDrops := snapshot.totalDrops

structure FlowStatistics where
  startTime : Instant
  points : List StatisticsPoint
  maxPoints : Nat
  deriving DecidableEq

/-- Points are more than 50 ms apart. -/
def spacing : Duration := Duration.fromMillis 50

/-- The time of a new point is past that of the last one. -/
def FlowStatistics.Due (flow : FlowStatistics) (elapsed : Duration) : Prop :=
  ∀ last ∈ flow.points.getLast?, last.time + spacing < elapsed

instance (flow : FlowStatistics) (elapsed : Duration) : Decidable (flow.Due elapsed) :=
  inferInstanceAs (Decidable (∀ last ∈ flow.points.getLast?, last.time + spacing < elapsed))

def FlowStatistics.record (flow : FlowStatistics) (now : Instant) (snapshot : FlowSnapshot) :
    FlowStatistics :=
  let elapsed := now - flow.startTime
  if flow.Due elapsed then
    let points := flow.points ++ [.of elapsed snapshot]
    { flow with points := if flow.maxPoints < points.length then points.tail else points }
  else flow

/-- The statistics of all classes. A class that is reported for the first time starts now. -/
def update (maxPoints : Nat) (history : PriorityTable (Option FlowStatistics)) (now : Instant)
    (report : Report) : PriorityTable (Option FlowStatistics) := fun priority =>
  match report priority with
  | none => history priority
  | some snapshot =>
      let flow := (history priority).getD { startTime := now, points := [], maxPoints }
      some (flow.record now snapshot)

/-! ## What is plotted -/

/-- The snapshots of a class, with the times they were shown at. -/
def shownOf (priority : Priority) (shown : List (Instant × Report)) : List (Instant × FlowSnapshot) :=
  shown.filterMap fun (now, report) => (report priority).map fun snapshot => (now, snapshot)

theorem shownOf_concat (priority : Priority) (shown : List (Instant × Report)) (now : Instant)
    (report : Report) : shownOf priority (shown ++ [(now, report)]) =
      shownOf priority shown ++ ((report priority).map fun snapshot => (now, snapshot)).toList := by
  rw [shownOf, List.filterMap_append]
  rfl

namespace FlowStatistics

/-- The points are some of the snapshots shown, the newest within 50 ms among them. -/
structure Plots (flow : FlowStatistics) (entries : List (Instant × FlowSnapshot)) : Prop where
  picked : ∃ picks : List (Instant × FlowSnapshot), picks.Sublist entries ∧
    flow.points = picks.map fun entry => .of (entry.1 - flow.startTime) entry.2
  bounded : flow.points.length ≤ flow.maxPoints
  spaced : flow.points.Pairwise fun earlier later => earlier.time + spacing < later.time
  current : ∀ entry ∈ entries, ∃ last ∈ flow.points.getLast?,
    entry.1 - flow.startTime ≤ last.time + spacing

theorem pairwise_concat_of_last {points : List StatisticsPoint} {point : StatisticsPoint}
    (spaced : points.Pairwise fun earlier later => earlier.time + spacing < later.time)
    (due : ∀ last ∈ points.getLast?, last.time + spacing < point.time) :
    (points ++ [point]).Pairwise fun earlier later => earlier.time + spacing < later.time := by
  refine List.pairwise_append.mpr ⟨spaced, List.pairwise_singleton _ _, ?_⟩
  intro earlier listed later new
  cases List.mem_singleton.mp new
  obtain ⟨last, ends⟩ : ∃ last, points.getLast? = some last :=
    Option.isSome_iff_exists.mp (List.getLast?_isSome.mpr (List.ne_nil_of_mem listed))
  have past := due last ends
  obtain ⟨front, rfl⟩ := List.getLast?_eq_some_iff.mp ends
  rcases List.mem_append.mp listed with before | same
  · obtain ⟨_, _, apart⟩ := List.pairwise_append.mp spaced
    have earlierLast : earlier.time + spacing < last.time :=
      apart earlier before last (List.mem_singleton_self _)
    exact (Nat.lt_of_lt_of_le earlierLast (Nat.le_add_right _ _)).trans past
  · cases List.mem_singleton.mp same
    exact past

variable {flow : FlowStatistics} {entries : List (Instant × FlowSnapshot)} {now : Instant}
  {snapshot : FlowSnapshot}

/-- A report in time is plotted, one that comes too early is not, and either way the
last point is no older than 50 ms. -/
theorem Plots.record (plots : flow.Plots entries) (positive : 0 < flow.maxPoints)
    (past : ∀ entry ∈ entries, entry.1 ≤ now) :
    (flow.record now snapshot).Plots (entries ++ [(now, snapshot)]) := by
  obtain ⟨picks, part, points⟩ := plots.picked
  unfold FlowStatistics.record
  by_cases due : flow.Due (now - flow.startTime)
  · rw [if_pos due]
    have spaced := @pairwise_concat_of_last _ (.of (now - flow.startTime) snapshot) plots.spaced due
    have picked : flow.points ++ [.of (now - flow.startTime) snapshot] =
        (picks ++ [(now, snapshot)]).map fun entry => .of (entry.1 - flow.startTime) entry.2 := by
      rw [List.map_append, ← points]
      rfl
    have sublist : (picks ++ [(now, snapshot)]).Sublist (entries ++ [(now, snapshot)]) := part.append (.refl _)
    have current (kept : List StatisticsPoint)
        (ends : kept.getLast? = some (.of (now - flow.startTime) snapshot)) :
        ∀ entry ∈ entries ++ [(now, snapshot)], ∃ last ∈ kept.getLast?,
          entry.1 - flow.startTime ≤ last.time + spacing := by
      intro entry listed
      refine ⟨_, ends, ?_⟩
      have before : entry.1 ≤ now := by
        rcases List.mem_append.mp listed with old | new
        · exact past entry old
        · exact Nat.le_of_eq (congrArg Prod.fst (List.mem_singleton.mp new))
      exact Nat.le_add_right_of_le (Nat.sub_le_sub_right before _)
    dsimp only
    split
    · rename_i full
      refine ⟨⟨(picks ++ [(now, snapshot)]).tail, (List.tail_sublist _).trans sublist, ?_⟩, ?_,
        spaced.sublist (List.tail_sublist _), current _ ?_⟩
      · dsimp only
        rw [picked, List.map_tail]
      · dsimp only
        rw [List.length_tail, List.length_append]
        exact plots.bounded
      · have room : flow.points ≠ [] := by
          intro none_
          rw [none_] at full
          simp at full
          omega
        rw [List.tail_append_of_ne_nil room]
        exact List.getLast?_concat
    · rename_i room
      exact ⟨⟨_, sublist, picked⟩, Nat.not_lt.mp room, spaced, current _ List.getLast?_concat⟩
  · rw [if_neg due]
    have early : ∃ last ∈ flow.points.getLast?, now - flow.startTime ≤ last.time + spacing := by
      simpa [Due] using due
    refine ⟨⟨picks, part.trans (List.sublist_append_left _ _), points⟩, plots.bounded, plots.spaced, ?_⟩
    intro entry listed
    rcases List.mem_append.mp listed with old | new
    · exact plots.current entry old
    · cases List.mem_singleton.mp new
      exact early

end FlowStatistics

/-- The curves of each class show what was shown of it. -/
structure Plotted (maxPoints : Nat) (shown : List (Instant × Report))
    (history : PriorityTable (Option FlowStatistics)) : Prop where
  absent : ∀ {priority}, history priority = none → shownOf priority shown = []
  plots : ∀ {priority flow}, history priority = some flow →
    flow.Plots (shownOf priority shown) ∧ flow.maxPoints = maxPoints

theorem Plotted.update {maxPoints : Nat} (positive : 0 < maxPoints) {shown : List (Instant × Report)}
    {history : PriorityTable (Option FlowStatistics)} (plotted : Plotted maxPoints shown history)
    {now : Instant} (past : ∀ entry ∈ shown, entry.1 ≤ now) (report : Report) :
    Plotted maxPoints (shown ++ [(now, report)]) (update maxPoints history now report) := by
  have before (priority : Priority) : ∀ entry ∈ shownOf priority shown, entry.1 ≤ now := by
    intro entry listed
    obtain ⟨⟨shownAt, earlier⟩, here, found⟩ := List.mem_filterMap.mp listed
    obtain ⟨_, _, rfl⟩ := Option.map_eq_some_iff.mp found
    exact past _ here
  constructor
  · intro priority nothing
    rw [shownOf_concat]
    unfold Gui.update at nothing
    split at nothing
    · rename_i missing
      rw [missing, plotted.absent nothing]
      rfl
    · cases nothing
  · intro priority flow here
    rw [shownOf_concat]
    unfold Gui.update at here
    split at here
    · rename_i missing
      rw [missing, Option.map_none, Option.toList_none, List.append_nil]
      exact plotted.plots here
    · rename_i snapshot found
      cases here
      rw [found]
      cases known : history priority with
      | none =>
          rw [plotted.absent known]
          have fresh : ({ startTime := now, points := [], maxPoints } : FlowStatistics).Plots [] := by
            refine ⟨⟨[], .refl _, rfl⟩, Nat.zero_le _, List.Pairwise.nil, ?_⟩
            intro entry listed
            cases listed
          refine ⟨fresh.record positive (fun entry listed => by cases listed), ?_⟩
          simp only [Option.getD_none, FlowStatistics.record]
          split <;> rfl
      | some flow =>
          obtain ⟨plots, same⟩ := plotted.plots known
          refine ⟨plots.record (same ▸ positive) (before priority), ?_⟩
          simp only [Option.getD_some, FlowStatistics.record]
          split <;> exact same

theorem plotted_nil (maxPoints : Nat) : Plotted maxPoints [] fun _ => none := by
  constructor
  · intro priority _
    rfl
  · intro priority flow here
    cases here

end EdfPipeline.Gui
