import EdfPipeline.Egress.Flow

/-!
# The account of the metrics

Events are applied in the order they were recorded. The counts of a class are
those of the applied ones; the others are on the channel or in the batch, so the
counts are never more than a channel, a batch and one packet behind the egress.
-/

set_option autoImplicit false

namespace EdfPipeline

open Egress (MetricsEvent eventCapacity)

/-- Packets of a class, and how many of them missed their deadlines. -/
structure Tally where
  packets : Nat
  deadlineMisses : Nat
  deriving DecidableEq, Repr

namespace Tally

/-- What events say of a class. -/
def of (priority : Priority) (events : List MetricsEvent) : Tally where
  packets := events.countP fun event => event.priority = priority
  deadlineMisses := events.countP fun event => event.priority = priority ∧ event.deadlineMissed

/-- What the statistics of a class say. -/
def counted (metrics : Option Metrics) : Tally where
  packets := (metrics.map Metrics.packetCount).getD 0
  deadlineMisses := (metrics.map Metrics.deadlineMisses).getD 0

def add (self other : Tally) : Tally where
  packets := self.packets + other.packets
  deadlineMisses := self.deadlineMisses + other.deadlineMisses

theorem of_append (priority : Priority) (earlier later : List MetricsEvent) :
    of priority (earlier ++ later) = (of priority earlier).add (of priority later) := by
  simp only [of, add, List.countP_append]

theorem counted_recordLatency (metrics : Option Metrics) (priority : Priority) (now : Instant)
    (latency : Duration) (deadlineMissed : Bool) :
    counted (some ((metrics.getD (.new priority)).recordLatency now latency deadlineMissed)) =
      (counted metrics).add { packets := 1, deadlineMisses := deadlineMissed.toNat } := by
  cases metrics <;> rfl

instance : Preorder Tally where
  le self other := self.packets ≤ other.packets ∧ self.deadlineMisses ≤ other.deadlineMisses
  le_refl _ := ⟨Nat.le_refl _, Nat.le_refl _⟩
  le_trans _ _ _ first second := ⟨first.1.trans second.1, first.2.trans second.2⟩

theorem le_add (self other : Tally) : self ≤ self.add other :=
  ⟨Nat.le_add_right _ _, Nat.le_add_right _ _⟩

/-- Missed deadlines are those of packets. -/
theorem of_misses (priority : Priority) (events : List MetricsEvent) :
    (of priority events).deadlineMisses ≤ (of priority events).packets :=
  List.countP_mono_left fun event _ missed => by
    simp only [decide_eq_true_eq] at missed ⊢
    exact missed.1

theorem counted_cleanup (metrics : Option Metrics) (now : Instant) :
    counted (metrics.map (·.cleanupOldMeasurements now)) = counted metrics := by
  cases metrics <;> rfl

/-- What a snapshot says. -/
def shown (snapshot : MetricsSnapshot) : Tally where
  packets := snapshot.packetCount
  deadlineMisses := snapshot.deadlineMisses

/-- Queries of percentiles change no counts. -/
theorem shown_snapshot (rounding : ℚ → ℚ) (metrics : Metrics) :
    shown (metrics.snapshot rounding) = counted (some metrics) := by
  have computed (metrics : Metrics) :
      counted (some (metrics.computeAndCachePercentiles rounding)) = counted (some metrics) := by
    unfold Metrics.computeAndCachePercentiles
    split
    · rfl
    · split <;> rfl
  exact (computed _).trans ((computed _).trans ((computed _).trans (computed _)))

/-- What is sent of a class is what is counted of it. -/
theorem shown_sendCurrentMetrics {rounding : ℚ → ℚ} {metrics : PriorityTable (Option Metrics)}
    {now : Instant} {priority : Priority} {snapshot : MetricsSnapshot}
    (sends : (sendCurrentMetrics rounding metrics now).2 priority = some snapshot) :
    shown snapshot = counted (metrics priority) := by
  obtain ⟨entry, cleaned, rfl⟩ := Option.map_eq_some_iff.mp sends
  have cloned : counted (some entry.clone) = counted (some entry) := rfl
  rw [shown_snapshot, cloned, ← counted_cleanup (metrics priority) now]
  exact congrArg counted cleaned.symm

end Tally

namespace MetricsCollector

namespace State

/-- Events recorded and not applied, the earliest first. -/
def pending (state : State) : List MetricsEvent :=
  (match state.processor with
    | .update rest => rest
    | .collect | .returned => state.batch) ++ state.egress.events

def records (state : State) (action : Signal ⊕ Work) : Option MetricsEvent :=
  (egressAction action).bind state.egress.records

@[simp] theorem records_signal (state : State) (signal : Signal) : state.records (.inl signal) = none := by
  cases signal <;> rfl

/-- The statistics are those of the events but the pending ones. -/
def Exact (state : State) (events : List MetricsEvent) : Prop :=
  ∃ applied, events = applied ++ state.pending ∧
    ∀ priority, Tally.counted (state.metrics priority) = .of priority applied

/-- A step applies the front of what is pending, and no statistics are taken back. -/
structure Applies (state : State) (recorded applied : List MetricsEvent) (next : State) : Prop where
  pending : state.pending ++ recorded = applied ++ next.pending
  counts : ∀ priority, Tally.counted (next.metrics priority) =
    (Tally.counted (state.metrics priority)).add (.of priority applied)
  stay : ∀ priority, (state.metrics priority).isSome → (next.metrics priority).isSome

theorem Applies.quiet {state next : State} (pending : next.pending = state.pending)
    (metrics : next.metrics = state.metrics) : state.Applies [] [] next where
  pending := by rw [pending, List.append_nil, List.nil_append]
  counts _ := by rw [metrics]; rfl
  stay _ := by rw [metrics]; exact id

theorem counted_record (state : State) (event : MetricsEvent) (priority : Priority) :
    Tally.counted (state.record event priority) =
      (Tally.counted (state.metrics priority)).add (.of priority [event]) := by
  simp only [record, PriorityTable.set_apply]
  split
  · rename_i same
    subst same
    rw [Tally.counted_recordLatency]
    cases missed : event.deadlineMissed <;> simp [Tally.of, missed]
  · rename_i different
    simp [Tally.of, Tally.add, Ne.symm different]

theorem isSome_record (state : State) (event : MetricsEvent) (priority : Priority)
    (present : (state.metrics priority).isSome) : (state.record event priority).isSome := by
  simp only [record, PriorityTable.set_apply]
  split
  · rfl
  · exact present

theorem processorStep_applies {state next : State} (stepped : state.processorStep = some next) :
    ∃ applied, state.Applies [] applied next := by
  unfold processorStep at stepped
  split at stepped
  · rename_i collecting
    refine ⟨[], ?_⟩
    split at stepped
    · split at stepped
      · rename_i event later waiting
        cases stepped
        exact .quiet (by simp [pending, collecting, waiting]) rfl
      · split at stepped
        · cases stepped
          exact .quiet (by simp [pending, collecting]) rfl
        · split at stepped <;> cases stepped
          · exact .quiet rfl rfl
          · exact .quiet (by simp [pending, collecting]) rfl
    · cases stepped
      exact .quiet (by simp [pending, collecting]) rfl
  · rename_i event rest updating
    cases stepped
    refine ⟨[event], ?_, state.counted_record event, state.isSome_record event⟩
    simp [pending, updating]
  · rename_i updating
    cases stepped
    exact ⟨[], .quiet (by simp [pending, updating]) rfl⟩
  · cases stepped

theorem moves_applies {state next : State} {action : Signal ⊕ Work}
    (moved : moves state action = some next) :
    ∃ applied, state.Applies (state.records action).toList applied next := by
  cases moves_moved moved with
  | egress told stepped =>
      obtain ⟨other, egress, egressStepped, rfl⟩ := step_egress stepped
      refine ⟨[], ?_, fun _ => rfl, fun _ => id⟩
      simp only [records, told, Option.bind_some, pending,
        (Egress.State.step_traffic other egressStepped).events, List.append_assoc, List.nil_append]
  | processor stepped => exact processorStep_applies stepped
  | publish published =>
      rw [publish_some published]
      refine ⟨[], List.append_nil _, fun _ => Tally.counted_cleanup _ _, ?_⟩
      intro priority present
      exact (Option.isSome_map ..).trans present

theorem Exact.misses {state : State} {events : List MetricsEvent} (exact_ : state.Exact events)
    (priority : Priority) : (Tally.counted (state.metrics priority)).deadlineMisses ≤
      (Tally.counted (state.metrics priority)).packets := by
  obtain ⟨applied, _, tallies⟩ := exact_
  rw [tallies]
  exact Tally.of_misses priority applied

theorem Exact.step {state next : State} {events recorded applied : List MetricsEvent}
    (exact_ : state.Exact events) (applies : state.Applies recorded applied next) :
    next.Exact (events ++ recorded) := by
  obtain ⟨earlier, split, tallies⟩ := exact_
  refine ⟨earlier ++ applied, ?_, ?_⟩
  · rw [split, List.append_assoc, applies.pending, List.append_assoc]
  · intro priority
    rw [applies.counts, tallies, Tally.of_append]

theorem moves_exact {state next : State} {events : List MetricsEvent} {action : Signal ⊕ Work}
    (exact_ : state.Exact events) (moved : moves state action = some next) :
    next.Exact (events ++ (state.records action).toList) := by
  obtain ⟨applied, applies⟩ := moves_applies moved
  exact exact_.step applies

/-! ## How far behind -/

/-- The channel and the batch hold no more than they may. -/
structure Bounded (state : State) : Prop where
  events : state.egress.events.length ≤ eventCapacity
  batch : state.batch.length ≤ batchSize
  rest : ∀ rest, state.processor = .update rest → rest.length ≤ batchSize

theorem Bounded.pending {state : State} (bounded : state.Bounded) :
    state.pending.length ≤ batchSize + eventCapacity := by
  rw [State.pending, List.length_append]
  refine Nat.add_le_add ?_ bounded.events
  cases place : state.processor with
  | update rest => exact bounded.rest rest place
  | collect | returned => exact bounded.batch

theorem records_room {state : Egress.State} {action : Egress.Action} {event : MetricsEvent}
    (records : state.records action = some event) : state.events.length < eventCapacity := by
  unfold Egress.State.records at records
  split at records
  · split at records
    · split at records
      · assumption
      · cases records
    · cases records
  · cases records

theorem processorStep_bounded {state next : State} (bounded : state.Bounded)
    (stepped : state.processorStep = some next) : next.Bounded := by
  have events : next.egress.events.length ≤ eventCapacity := by
    obtain ⟨events, unchanged, split⟩ := processorStep_takes stepped
    have before := bounded.events
    rw [split, List.length_append] at before
    rw [unchanged]
    exact (Nat.le_add_left _ _).trans before
  suffices next.batch.length ≤ batchSize ∧
      ∀ rest, next.processor = .update rest → rest.length ≤ batchSize from
    ⟨events, this.1, this.2⟩
  unfold processorStep at stepped
  split at stepped
  · rename_i collecting
    split at stepped
    · rename_i room
      split at stepped
      · rename_i event later waiting
        cases stepped
        refine ⟨?_, bounded.rest⟩
        rw [List.length_append]
        exact room
      · split at stepped
        · cases stepped
          exact ⟨bounded.batch, by simp⟩
        · split at stepped <;> cases stepped
          · exact ⟨bounded.batch, bounded.rest⟩
          · refine ⟨bounded.batch, ?_⟩
            rintro rest ⟨⟩
            exact bounded.batch
    · cases stepped
      refine ⟨bounded.batch, ?_⟩
      rintro rest ⟨⟩
      exact bounded.batch
  · rename_i event rest updating
    cases stepped
    refine ⟨bounded.batch, ?_⟩
    rintro later ⟨⟩
    exact (Nat.le_succ _).trans (bounded.rest _ updating)
  · cases stepped
    exact ⟨Nat.zero_le _, by simp⟩
  · cases stepped

theorem moves_bounded {state next : State} {action : Signal ⊕ Work} (bounded : state.Bounded)
    (moved : moves state action = some next) : next.Bounded := by
  cases moves_moved moved with
  | @egress _ inner _ told stepped =>
      obtain ⟨other, egress, egressStepped, rfl⟩ := step_egress stepped
      refine ⟨?_, bounded.batch, bounded.rest⟩
      simp only [(Egress.State.step_traffic other egressStepped).events, List.length_append]
      cases records : state.egress.records inner with
      | none => exact bounded.events
      | some event => exact records_room records
  | processor stepped => exact processorStep_bounded bounded stepped
  | publish published =>
      rw [publish_some published]
      exact ⟨bounded.events, bounded.batch, bounded.rest⟩

end State

end MetricsCollector

/-! ## Packets and their events -/

namespace Egress

/-- The packet on its way to `record_packet`, with its class. -/
def Pc.inProgress : Pc → Option (Priority × Packet)
  | .measure _ priority packet | .judge _ priority packet _ => some (priority, packet)
  | .record _ packet event => some (event.priority, packet)
  | .top | .poll _ | .send _ _ _ | .returned => none

namespace State

/-- Events follow the packets received, each in the class it was received in. -/
def Follows (state : State) (events : List MetricsEvent) : Prop :=
  state.dequeued.map Prod.fst =
    events.map MetricsEvent.priority ++ (state.pc.inProgress.map Prod.fst).toList

theorem step_follows {state next : State} {events : List MetricsEvent} {action : Action}
    (follows : state.Follows events) (stepped : state.step action = some next) :
    next.Follows (events ++ (state.records action).toList) := by
  have quiet (silent : state.records action = none) (dequeued : next.dequeued = state.dequeued)
      (same : next.pc.inProgress = state.pc.inProgress) :
      next.Follows (events ++ (state.records action).toList) := by
    rw [silent, Option.toList_none, List.append_nil, Follows, dequeued, same]
    exact follows
  cases step_moves stepped with
  | receive place received =>
      have silent : state.records .run = none := by simp only [State.records, place]
      rw [Follows, place] at follows
      rw [silent, Option.toList_none, List.append_nil, Follows, receive, List.map_append, follows]
      simp [Pc.inProgress]
  | @record rest packet event place room =>
      obtain ⟨_, _, _, dequeued, reached⟩ := recordPacket_frame state rest packet event
      have records : state.records .run = some event := by simp only [State.records, place, if_pos room]
      have done : (state.recordPacket rest packet event).pc.inProgress = none := by
        rcases reached with polling | ⟨socket, sending⟩
        · rw [polling]
          rfl
        · rw [sending]
          rfl
      rw [Follows, place] at follows
      rw [records, Follows, dequeued, done, follows, List.map_append]
      simp [Pc.inProgress]
  | arrive | disconnect | tick | stop | takeEvent | wouldBlock => exact quiet rfl rfl rfl
  | sent place | failed place => exact quiet rfl rfl (by rw [place]; rfl)
  | enter place | quit place | leave place | skip place | close place | measure place | judge place =>
      exact quiet (by simp only [State.records, place]) rfl (by rw [place]; rfl)

end State

end Egress

namespace MetricsCollector.State

theorem moves_follows {state next : State} {events : List MetricsEvent} {action : Signal ⊕ Work}
    (follows : state.egress.Follows events) (moved : moves state action = some next) :
    next.egress.Follows (events ++ (state.records action).toList) := by
  have silent (nothing : state.records action = none) {channel : List MetricsEvent}
      (unchanged : next.egress = { state.egress with events := channel }) :
      next.egress.Follows (events ++ (state.records action).toList) := by
    rw [nothing, Option.toList_none, List.append_nil, unchanged]
    exact follows
  cases moves_moved moved with
  | egress told stepped =>
      obtain ⟨_, egress, egressStepped, rfl⟩ := step_egress stepped
      simp only [records, told, Option.bind_some]
      exact Egress.State.step_follows follows egressStepped
  | processor stepped =>
      obtain ⟨channel, unchanged, _⟩ := processorStep_takes stepped
      exact silent rfl unchanged
  | publish published =>
      rw [publish_some published] at silent ⊢
      exact silent rfl rfl

/-- What the statistics of a class lack of the packets received of it. -/
def behind (state : State) (priority : Priority) : Nat :=
  (Tally.of priority state.pending).packets +
    (state.egress.pc.inProgress.map Prod.fst).toList.count priority

theorem count_class (priority : Priority) (items : List (Priority × Packet)) :
    (items.map Prod.fst).count priority = (items.filterMap (ofClass priority)).length := by
  induction items with
  | nil => rfl
  | cons item rest ih =>
      by_cases same : item.1 = priority
      · simp [ofClass, same, ih]
      · simp [ofClass, same, ih]

theorem Exact.packets {state : State} {events : List MetricsEvent} (exact_ : state.Exact events)
    (follows : state.egress.Follows events) (priority : Priority) :
    (state.egress.dequeuedOf priority).length =
      (Tally.counted (state.metrics priority)).packets + state.behind priority := by
  obtain ⟨applied, split, tallies⟩ := exact_
  have classes (events : List MetricsEvent) :
      (events.map MetricsEvent.priority).count priority = (Tally.of priority events).packets := by
    rw [List.count, List.countP_map]
    rfl
  rw [Egress.State.dequeuedOf, ← count_class, follows, List.count_append, classes, split, Tally.of_append,
    tallies, behind, ← Nat.add_assoc]
  rfl

theorem Bounded.behind_le {state : State} (bounded : state.Bounded) (priority : Priority) :
    state.behind priority ≤ batchSize + eventCapacity + 1 := by
  have single : (state.egress.pc.inProgress.map Prod.fst).toList.count priority ≤ 1 :=
    List.count_le_length.trans Option.length_toList_le
  exact Nat.add_le_add ((List.countP_le_length).trans bounded.pending) single

end MetricsCollector.State

end EdfPipeline
