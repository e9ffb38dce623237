import EdfPipeline.Pipeline.Account

/-!
# The statistics thread

Every 100 ms it reads the drop counters, first those of the ingress and then those
of the scheduler, one at a time, and sends them with the statistics. The counters
are read at different times while the other threads go on.
-/

set_option autoImplicit false

namespace EdfPipeline

open TransitionSystem

structure EDFDropCounters where
  heap : Nat
  output : PriorityTable Nat

/-- The statistics of a class with its drops. -/
structure FlowSnapshot where
  statistics : MetricsSnapshot
  expectedMaxLatency : Duration
  ingressDrops : Nat
  edfHeapDrops : Nat
  edfOutputDrops : Nat
  totalDrops : Nat
  deriving DecidableEq

abbrev Report : Type := PriorityTable (Option FlowSnapshot)

/-- The merge of `send_current_metrics`. -/
def flowSnapshots (expectedLatencies : PriorityTable Duration) (ingressDrops : PriorityTable Nat)
    (edfDrops : EDFDropCounters) (snapshots : PriorityTable (Option MetricsSnapshot)) : Report :=
  fun priority => (snapshots priority).map fun statistics =>
    { statistics
      expectedMaxLatency := expectedLatencies priority
      ingressDrops := ingressDrops priority
      edfHeapDrops := edfDrops.heap
      edfOutputDrops := edfDrops.output priority
      totalDrops := ingressDrops priority + edfDrops.heap + edfDrops.output priority }

/-! ## The thread -/

namespace StatisticsThread

/-- A place in the loop; `rest` are the counters the call has still to read. -/
inductive Pc where
  | loop
  | check
  | readIngress (rest : List Priority) (drops : PriorityTable Nat)
  | readScheduler (rest : List Priority) (ingressDrops drops : PriorityTable Nat)
  | send (ingressDrops : PriorityTable Nat) (edfDrops : EDFDropCounters)
  | restart
  | returned

/-- `sent` are the snapshots sent, in order. -/
structure Thread where
  interval : Instant
  pc : Pc
  sent : List Report

def Thread.start : Thread where
  interval := 0
  pc := .loop
  sent := []

def period : Duration := Duration.fromMillis 100

variable (stage : Stage)

/-- The pipeline with its past, beside the thread. -/
abbrev Watched : Type :=
  (Pipeline.State stage × Past (Pipeline.State stage) (Pipeline.Action stage)) × Thread

variable {stage}

/-- The next step of the thread. No scheduler drops packets at a heap. -/
def threadStep (watched : Watched stage) : Option (Watched stage) :=
  let (history, thread) := watched
  let state := history.1
  match thread.pc with
  | .loop =>
      some (history, { thread with pc := if state.egress.running then .check else .returned })
  | .check =>
      if period ≤ state.egress.clock - thread.interval then
        some (history, { thread with pc := .readIngress Priority.all fun _ => 0 })
      else some (history, { thread with pc := .loop })
  | .readIngress (priority :: rest) drops =>
      let counter := (state.ingress.queues priority).dropCounter
      some (history, { thread with pc := .readIngress rest (drops.set priority counter) })
  | .readIngress [] drops =>
      some (history, { thread with pc := .readScheduler Priority.all drops fun _ => 0 })
  | .readScheduler (priority :: rest) ingressDrops drops =>
      let counter := (stage.outputs state.scheduler priority).dropCounter
      some (history,
        { thread with pc := .readScheduler rest ingressDrops (drops.set priority counter) })
  | .readScheduler [] ingressDrops drops =>
      some (history, { thread with pc := .send ingressDrops { heap := 0, output := drops } })
  | .send ingressDrops edfDrops =>
      let snapshots := (sendCurrentMetrics Binary64.nearest state.2.metrics state.egress.clock).2
      (recorded (Pipeline.step stage) history (.inr (.inr .publish))).map fun next =>
        (next,
          { thread with
            pc := .restart
            sent := thread.sent ++
              [flowSnapshots Pipeline.expectedLatencies ingressDrops edfDrops snapshots] })
  | .restart => some (history, { thread with interval := state.egress.clock, pc := .loop })
  | .returned => none

/-- A step of the other threads, or of this one, which alone calls `send_current_metrics`. -/
inductive Action (stage : Stage) where
  | pipeline (action : Pipeline.Action stage)
  | statistics

def step (watched : Watched stage) : Action stage → Option (Watched stage)
  | .pipeline (.inr (.inr .publish)) => none
  | .pipeline action =>
      (recorded (Pipeline.step stage) watched.1 action).map fun next => (next, watched.2)
  | .statistics => threadStep watched

/-! ## What only grows -/

/-- Counters, statistics and the clock do not go back. -/
structure Advanced (before after : Pipeline.State stage) : Prop where
  ingressDrops : ∀ priority, (before.ingress.queues priority).dropCounter ≤
    (after.ingress.queues priority).dropCounter
  edfDrops : ∀ priority, (stage.outputs before.scheduler priority).dropCounter ≤
    (stage.outputs after.scheduler priority).dropCounter
  counts : ∀ priority, Tally.counted (before.2.metrics priority) ≤ .counted (after.2.metrics priority)
  stay : ∀ priority, (before.2.metrics priority).isSome → (after.2.metrics priority).isSome
  clock : before.egress.clock ≤ after.egress.clock

theorem dropCounter_le {before after : PriorityTable OutputQueue} (grown : Grown before after)
    (counted : ∀ priority, (before priority).Counted) (counted' : ∀ priority, (after priority).Counted)
    (priority : Priority) : (before priority).dropCounter ≤ (after priority).dropCounter := by
  rw [counted priority, counted' priority]
  exact (((grown priority).filter _).map Prod.fst).length_le

theorem step_advanced {state next : Pipeline.State stage} {action : Pipeline.Action stage}
    (kept : Pipeline.Kept state) (stepped : Pipeline.step stage state action = some next) :
    Advanced state next := by
  have kept' := Pipeline.step_kept kept stepped
  have outputs : Grown state.ingress.queues next.ingress.queues ∧
      Grown (stage.outputs state.scheduler) (stage.outputs next.scheduler) := by
    cases Link.step_moves stepped with
    | send moved told =>
        refine ⟨?_, Pipeline.front_grown kept.front moved⟩
        cases Link.step_moves moved with
        | send served received => exact (Ingress.State.step_hands (Ingress.State.serve_step served)).grown
        | alone => exact .refl _
    | alone => exact ⟨.refl _, .refl _⟩
  have behind : (∀ priority, Tally.counted (state.2.metrics priority) ≤ .counted (next.2.metrics priority)) ∧
      (∀ priority, (state.2.metrics priority).isSome → (next.2.metrics priority).isSome) ∧
        state.egress.clock ≤ next.egress.clock := by
    refine @Link.downstream_kept _ _ _ _ (Pipeline.link stage) (fun collector =>
      (∀ priority, Tally.counted (state.2.metrics priority) ≤ .counted (collector.metrics priority)) ∧
        (∀ priority, (state.2.metrics priority).isSome → (collector.metrics priority).isSome) ∧
          state.egress.clock ≤ collector.egress.clock) ?_ _ _ _
      ⟨fun _ => le_refl _, fun _ => id, Nat.le_refl _⟩ stepped
    rintro collector told after ⟨counts, stay, clock⟩ moved
    obtain ⟨applied, applies⟩ := MetricsCollector.State.moves_applies moved
    refine ⟨?_, fun priority => applies.stay priority ∘ stay priority, ?_⟩
    · intro priority
      rw [applies.counts]
      exact (counts priority).trans (Tally.le_add _ _)
    · rw [(MetricsCollector.moves_passes moved).clock]
      exact clock.trans (Nat.le_add_right _ _)
  exact
    { ingressDrops := dropCounter_le outputs.1 kept.front.routed.counted kept'.front.routed.counted
      edfDrops := dropCounter_le outputs.2 (stage.counted kept.front.scheduler)
        (stage.counted kept'.front.scheduler)
      counts := behind.1
      stay := behind.2.1
      clock := behind.2.2 }

/-! ## Reports -/

/-- The figures of a report do not exceed those of a later one. -/
structure Precedes (earlier later : FlowSnapshot) : Prop where
  counts : Tally.shown earlier.statistics ≤ .shown later.statistics
  ingressDrops : earlier.ingressDrops ≤ later.ingressDrops
  edfOutputDrops : earlier.edfOutputDrops ≤ later.edfOutputDrops
  totalDrops : earlier.totalDrops ≤ later.totalDrops

/-- A class that was reported is reported again, with figures that went up. -/
def Ascends (earlier later : Report) : Prop :=
  ∀ priority, ∀ snapshot ∈ earlier priority, ∃ next ∈ later priority, Precedes snapshot next

/-- The figures were read before now. -/
structure Standing (state : Pipeline.State stage) (priority : Priority) (snapshot : FlowSnapshot) :
    Prop where
  counts : Tally.shown snapshot.statistics ≤ .counted (state.2.metrics priority)
  counted : (state.2.metrics priority).isSome
  ingressDrops : snapshot.ingressDrops ≤ (state.ingress.queues priority).dropCounter
  edfHeapDrops : snapshot.edfHeapDrops = 0
  edfOutputDrops : snapshot.edfOutputDrops ≤ (stage.outputs state.scheduler priority).dropCounter
  totalDrops : snapshot.totalDrops =
    snapshot.ingressDrops + snapshot.edfHeapDrops + snapshot.edfOutputDrops

theorem Standing.advance {state next : Pipeline.State stage} {priority : Priority}
    {snapshot : FlowSnapshot} (standing : Standing state priority snapshot)
    (advanced : Advanced state next) : Standing next priority snapshot :=
  { standing with
    counts := standing.counts.trans (advanced.counts priority)
    counted := advanced.stay priority standing.counted
    ingressDrops := standing.ingressDrops.trans (advanced.ingressDrops priority)
    edfOutputDrops := standing.edfOutputDrops.trans (advanced.edfDrops priority) }

/-- A counter was read since the reports were sent, and not ahead of now. -/
structure Between (sent : List Report) (figure : FlowSnapshot → Nat) (priority : Priority)
    (value now : Nat) : Prop where
  since : ∀ report ∈ sent, ∀ snapshot ∈ report priority, figure snapshot ≤ value
  upTo : value ≤ now

/-- What the thread has read so far. -/
def Pc.Reads (state : Pipeline.State stage) (sent : List Report) : Pc → Prop
  | .loop | .check | .restart | .returned => True
  | .readIngress rest drops => ∀ priority, priority ∉ rest →
      Between sent FlowSnapshot.ingressDrops priority (drops priority)
        (state.ingress.queues priority).dropCounter
  | .readScheduler rest ingressDrops drops =>
      (∀ priority, Between sent FlowSnapshot.ingressDrops priority (ingressDrops priority)
        (state.ingress.queues priority).dropCounter) ∧
      ∀ priority, priority ∉ rest →
        Between sent FlowSnapshot.edfOutputDrops priority (drops priority)
          (stage.outputs state.scheduler priority).dropCounter
  | .send ingressDrops edfDrops =>
      (∀ priority, Between sent FlowSnapshot.ingressDrops priority (ingressDrops priority)
        (state.ingress.queues priority).dropCounter) ∧
      (∀ priority, Between sent FlowSnapshot.edfOutputDrops priority (edfDrops.output priority)
        (stage.outputs state.scheduler priority).dropCounter) ∧
      edfDrops.heap = 0

theorem Between.advance {sent : List Report} {figure : FlowSnapshot → Nat} {priority : Priority}
    {value now later : Nat} (between : Between sent figure priority value now) (passes : now ≤ later) :
    Between sent figure priority value later :=
  ⟨between.since, between.upTo.trans passes⟩

theorem Pc.Reads.advance {state next : Pipeline.State stage} {sent : List Report} {pc : Pc}
    (reads : pc.Reads state sent) (advanced : Advanced state next) : pc.Reads next sent := by
  cases pc with
  | loop | check | restart | returned => trivial
  | readIngress rest drops =>
      exact fun priority done => (reads priority done).advance (advanced.ingressDrops priority)
  | readScheduler rest ingressDrops drops =>
      exact ⟨fun priority => (reads.1 priority).advance (advanced.ingressDrops priority),
        fun priority done => (reads.2 priority done).advance (advanced.edfDrops priority)⟩
  | send ingressDrops edfDrops =>
      exact ⟨fun priority => (reads.1 priority).advance (advanced.ingressDrops priority),
        fun priority => (reads.2.1 priority).advance (advanced.edfDrops priority), reads.2.2⟩

/-- Reading the next counter. -/
theorem read_next {property : Priority → Nat → Prop} {priority : Priority} {rest : List Priority}
    {drops : PriorityTable Nat} (read : ∀ other, other ∉ priority :: rest → property other (drops other))
    {counter : Nat} (holds : property priority counter) :
    ∀ other, other ∉ rest → property other (drops.set priority counter other) := by
  intro other done
  by_cases same : other = priority
  · subst same
    rwa [PriorityTable.set_self]
  · rw [PriorityTable.set_other same]
    exact read other (by simp [same, done])

/-- Between two reports the thread waits for a period. -/
def Thread.Paced (thread : Thread) (clock : Instant) : Prop :=
  thread.interval ≤ clock ∧
    match thread.pc with
    | .loop | .check => thread.sent.length * period ≤ thread.interval
    | .readIngress _ _ | .readScheduler _ _ _ | .send _ _ => (thread.sent.length + 1) * period ≤ clock
    | .restart | .returned => thread.sent.length * period ≤ clock

theorem Thread.Paced.advance {thread : Thread} {clock later : Instant} (paced : thread.Paced clock)
    (passes : clock ≤ later) : thread.Paced later := by
  refine ⟨paced.1.trans passes, ?_⟩
  have kept := paced.2
  cases place : thread.pc with
  | loop | check =>
      rw [place] at kept
      exact kept
  | readIngress | readScheduler | send | restart | returned =>
      rw [place] at kept
      exact kept.trans passes

structure Watching (watched : Watched stage) : Prop where
  booked : Pipeline.Booked watched.1
  tallied : Pipeline.Tallied watched.1
  reads : watched.2.pc.Reads watched.1.1 watched.2.sent
  standing : ∀ report ∈ watched.2.sent, ∀ priority, ∀ snapshot ∈ report priority,
    Standing watched.1.1 priority snapshot
  ascending : watched.2.sent.Pairwise Ascends
  misses : ∀ report ∈ watched.2.sent, ∀ priority, ∀ snapshot ∈ report priority,
    snapshot.statistics.deadlineMisses ≤ snapshot.statistics.packetCount
  paced : watched.2.Paced watched.1.1.egress.clock

theorem Watching.pipeline {history next : Pipeline.State stage × Past (Pipeline.State stage)
    (Pipeline.Action stage)} {thread : Thread} {action : Pipeline.Action stage}
    (watching : Watching (history, thread))
    (stepped : recorded (Pipeline.step stage) history action = some next) : Watching (next, thread) := by
  have advanced := step_advanced watching.booked.kept (recorded_eq_some.mp stepped).1
  exact
    { booked := Pipeline.step_booked watching.booked stepped
      tallied := Pipeline.step_tallied watching.tallied stepped
      reads := watching.reads.advance advanced
      standing := fun report listed priority snapshot shown =>
        (watching.standing report listed priority snapshot shown).advance advanced
      ascending := watching.ascending
      misses := watching.misses
      paced := watching.paced.advance advanced.clock }

/-- A step of the thread that sends nothing. -/
theorem Watching.quiet {history : Pipeline.State stage × Past (Pipeline.State stage)
    (Pipeline.Action stage)} {thread next : Thread} (watching : Watching (history, thread))
    (sent : next.sent = thread.sent) (reads : next.pc.Reads history.1 thread.sent)
    (paced : next.Paced history.1.egress.clock) : Watching (history, next) :=
  { watching with
    reads := sent ▸ reads
    standing := sent ▸ watching.standing
    ascending := sent ▸ watching.ascending
    misses := sent ▸ watching.misses
    paced := paced }

/-- The report that `send_current_metrics` makes of the counters read before. -/
theorem sent_standing {state : Pipeline.State stage} {sent : List Report}
    {ingressDrops : PriorityTable Nat} {edfDrops : EDFDropCounters} {expected : PriorityTable Duration}
    (reads : Pc.Reads state sent (.send ingressDrops edfDrops)) {priority : Priority}
    {snapshot : FlowSnapshot}
    (shown : flowSnapshots expected ingressDrops edfDrops
      (sendCurrentMetrics Binary64.nearest state.2.metrics state.egress.clock).2 priority = some snapshot) :
    Tally.shown snapshot.statistics = .counted (state.2.metrics priority) ∧
      Standing state priority snapshot ∧ snapshot.ingressDrops = ingressDrops priority ∧
        snapshot.edfOutputDrops = edfDrops.output priority := by
  obtain ⟨statistics, sends, rfl⟩ := Option.map_eq_some_iff.mp shown
  have counts := Tally.shown_sendCurrentMetrics sends
  obtain ⟨entry, cleaned, _⟩ := Option.map_eq_some_iff.mp sends
  obtain ⟨metrics, present, _⟩ := Option.map_eq_some_iff.mp cleaned
  refine ⟨counts, ?_, rfl, rfl⟩
  exact
    { counts := le_of_eq counts
      counted := by rw [present]; rfl
      ingressDrops := (reads.1 priority).upTo
      edfHeapDrops := reads.2.2
      edfOutputDrops := (reads.2.1 priority).upTo
      totalDrops := rfl }

/-- Every earlier report is exceeded. -/
theorem sent_ascends {state : Pipeline.State stage} {sent : List Report}
    {ingressDrops : PriorityTable Nat} {edfDrops : EDFDropCounters} {expected : PriorityTable Duration}
    (reads : Pc.Reads state sent (.send ingressDrops edfDrops)) {earlier : Report}
    (listed : earlier ∈ sent)
    (standing : ∀ priority, ∀ snapshot ∈ earlier priority, Standing state priority snapshot) :
    Ascends earlier (flowSnapshots expected ingressDrops edfDrops
      (sendCurrentMetrics Binary64.nearest state.2.metrics state.egress.clock).2) := by
  intro priority snapshot shown
  have stands := standing priority snapshot shown
  obtain ⟨metrics, present⟩ := Option.isSome_iff_exists.mp stands.counted
  have sends : (sendCurrentMetrics Binary64.nearest state.2.metrics state.egress.clock).2 priority =
      some ((metrics.cleanupOldMeasurements state.egress.clock).clone.snapshot Binary64.nearest) := by
    simp only [sendCurrentMetrics, present, Option.map_some]
  have counts := Tally.shown_sendCurrentMetrics sends
  refine ⟨_, congrArg (Option.map _) sends, ?_⟩
  have ingress := (reads.1 priority).since earlier listed snapshot shown
  have output := (reads.2.1 priority).since earlier listed snapshot shown
  refine ⟨counts ▸ stands.counts, ingress, output, ?_⟩
  rw [stands.totalDrops, stands.edfHeapDrops, reads.2.2]
  exact Nat.add_le_add (Nat.add_le_add_right ingress 0) output

theorem Watching.send {history next : Pipeline.State stage × Past (Pipeline.State stage)
    (Pipeline.Action stage)} {thread : Thread} {ingressDrops : PriorityTable Nat}
    {edfDrops : EDFDropCounters} (watching : Watching (history, thread))
    (place : thread.pc = .send ingressDrops edfDrops)
    (stepped : recorded (Pipeline.step stage) history (.inr (.inr .publish)) = some next) :
    Watching (next,
      { thread with
        pc := .restart
        sent := thread.sent ++ [flowSnapshots Pipeline.expectedLatencies ingressDrops edfDrops
          (sendCurrentMetrics Binary64.nearest history.1.2.metrics history.1.egress.clock).2] }) := by
  have after := watching.pipeline stepped
  have advanced := step_advanced watching.booked.kept (recorded_eq_some.mp stepped).1
  have reads := watching.reads
  rw [place] at reads
  refine ⟨after.booked, after.tallied, trivial, ?_, ?_, ?_, ?_⟩
  · intro report listed priority snapshot shown
    rcases List.mem_append.mp listed with earlier | new
    · exact after.standing report earlier priority snapshot shown
    · rw [List.mem_singleton.mp new] at shown
      exact (sent_standing reads shown).2.1.advance advanced
  · rw [List.pairwise_append]
    refine ⟨watching.ascending, List.pairwise_singleton .., ?_⟩
    intro earlier listed report new
    rw [List.mem_singleton.mp new]
    exact sent_ascends reads listed (watching.standing earlier listed)
  · intro report listed priority snapshot shown
    rcases List.mem_append.mp listed with earlier | new
    · exact watching.misses report earlier priority snapshot shown
    · rw [List.mem_singleton.mp new] at shown
      have counts := (sent_standing reads shown).1
      have misses := watching.tallied.exact_.misses priority
      rw [← counts] at misses
      exact misses
  · have paced := after.paced
    rw [Thread.Paced, place] at paced
    refine ⟨paced.1, ?_⟩
    rw [List.length_append]
    exact paced.2

theorem Watching.thread {watched next : Watched stage} (watching : Watching watched)
    (stepped : threadStep watched = some next) : Watching next := by
  obtain ⟨history, thread⟩ := watched
  have reads := watching.reads
  have paced := watching.paced
  rw [Thread.Paced] at paced
  unfold threadStep at stepped
  simp only at stepped reads paced
  split at stepped
  · rename_i place
    rw [place] at paced
    cases stepped
    cases history.1.egress.running with
    | true => exact watching.quiet rfl trivial paced
    | false => exact watching.quiet rfl trivial ⟨paced.1, paced.2.trans paced.1⟩
  · rename_i place
    rw [place] at paced
    split at stepped
    · rename_i late
      cases stepped
      refine watching.quiet rfl (fun priority done => absurd (Priority.mem_all priority) done) ⟨paced.1, ?_⟩
      calc
        (thread.sent.length + 1) * period = thread.sent.length * period + period := Nat.succ_mul _ _
        _ ≤ thread.interval + period := Nat.add_le_add_right paced.2 _
        _ ≤ history.1.egress.clock := by
          rw [Nat.add_comm]
          exact Nat.add_le_of_le_sub paced.1 late
    · cases stepped
      exact watching.quiet rfl trivial paced
  · rename_i priority rest drops place
    rw [place] at reads paced
    cases stepped
    have standing := watching.standing
    let read (other : Priority) (value : Nat) : Prop :=
      Between thread.sent FlowSnapshot.ingressDrops other value (history.1.ingress.queues other).dropCounter
    have now : read priority (history.1.ingress.queues priority).dropCounter :=
      ⟨fun report listed snapshot shown => (standing report listed priority snapshot shown).ingressDrops,
        Nat.le_refl _⟩
    exact watching.quiet rfl (@read_next read _ _ _ reads _ now) paced
  · rename_i drops place
    rw [place] at reads paced
    cases stepped
    exact watching.quiet rfl ⟨fun priority => reads priority List.not_mem_nil,
      fun priority done => absurd (Priority.mem_all priority) done⟩ paced
  · rename_i priority rest ingressDrops drops place
    rw [place] at reads paced
    cases stepped
    have standing := watching.standing
    let read (other : Priority) (value : Nat) : Prop :=
      Between thread.sent FlowSnapshot.edfOutputDrops other value
        (stage.outputs history.1.scheduler other).dropCounter
    have now : read priority (stage.outputs history.1.scheduler priority).dropCounter :=
      ⟨fun report listed snapshot shown => (standing report listed priority snapshot shown).edfOutputDrops,
        Nat.le_refl _⟩
    exact watching.quiet rfl ⟨reads.1, @read_next read _ _ _ reads.2 _ now⟩ paced
  · rename_i ingressDrops drops place
    rw [place] at reads paced
    cases stepped
    exact watching.quiet rfl ⟨reads.1, fun priority => reads.2 priority List.not_mem_nil, rfl⟩ paced
  · rename_i ingressDrops edfDrops place
    obtain ⟨after, published, rfl⟩ := Option.map_eq_some_iff.mp stepped
    exact watching.send place published
  · rename_i place
    rw [place] at paced
    cases stepped
    exact watching.quiet rfl trivial ⟨Nat.le_refl _, paced.2⟩
  · cases stepped

theorem step_watching {watched next : Watched stage} {action : Action stage}
    (watching : Watching watched) (stepped : step watched action = some next) : Watching next := by
  unfold step at stepped
  split at stepped
  · cases stepped
  · obtain ⟨after, moved, rfl⟩ := Option.map_eq_some_iff.mp stepped
    exact watching.pipeline moved
  · exact watching.thread stepped

theorem start_watching (registrations : List Registration)
    (socketMap : PriorityTable (Option (List Egress.Socket))) :
    Watching ((Pipeline.start stage registrations socketMap, []), .start) where
  booked := Pipeline.start_booked registrations socketMap
  tallied := Pipeline.start_tallied registrations socketMap
  reads := trivial
  standing := by simp [Thread.start]
  ascending := List.Pairwise.nil
  misses := by simp [Thread.start]
  paced := ⟨Nat.zero_le _, le_of_eq (Nat.zero_mul period)⟩

/-- What a reader of the reports may rely on: no packet is counted twice, no figure goes
back, and there is at most one report a period. -/
structure Reported (watched : Watched stage) : Prop where
  read : ∀ report ∈ watched.2.sent, ∀ priority, ∀ snapshot ∈ report priority,
    snapshot.totalDrops + snapshot.statistics.packetCount ≤ Pipeline.readOf watched.1.2 priority
  misses : ∀ report ∈ watched.2.sent, ∀ priority, ∀ snapshot ∈ report priority,
    snapshot.statistics.deadlineMisses ≤ snapshot.statistics.packetCount
  ascending : watched.2.sent.Pairwise Ascends
  paced : watched.2.sent.length * period ≤ watched.1.1.egress.clock

/-- What was counted was received, and nothing that was received was dropped. -/
theorem Watching.reported {registrations : List Registration} {stage : ClassStage registrations}
    {watched : Watched stage.toStage} (watching : Watching watched) : Reported watched where
  read := by
    intro report listed priority snapshot shown
    have standing := watching.standing report listed priority snapshot shown
    have received := watching.tallied.account.packets priority
    refine le_trans ?_ (Pipeline.counted_le_read watching.booked priority)
    rw [standing.totalDrops, standing.edfHeapDrops, Nat.add_zero, Nat.add_assoc, received]
    refine Nat.add_le_add standing.ingressDrops (Nat.add_le_add standing.edfOutputDrops ?_)
    exact standing.counts.1.trans (Nat.le_add_right _ _)
  misses := watching.misses
  ascending := watching.ascending
  paced := by
    obtain ⟨before, paced⟩ := watching.paced
    cases place : watched.2.pc with
    | loop | check =>
        rw [place] at paced
        exact paced.trans before
    | readIngress | readScheduler | send =>
        rw [place] at paced
        exact (Nat.mul_le_mul_right _ (Nat.le_succ _)).trans paced
    | restart | returned =>
        rw [place] at paced
        exact paced

end StatisticsThread

open StatisticsThread in
/-- With every scheduler but MC-EDF, and however the counters are read while the other
threads go on, the packets and drops a report claims for a class were read, its figures
never go back from one report to the next, and reports are at least 100 ms apart. -/
theorem PipelineConfig.reports_only_read (config : PipelineConfig)
    (keepsClasses : config.scheduler ≠ .mcEdfElastic)
    (actions : List (StatisticsThread.Action config.stage)) :
    Throughout StatisticsThread.step Reported ((config.start, []), .start) actions := by
  obtain ⟨stage, same⟩ := config.exists_classStage keepsClasses
  rw [PipelineConfig.start]
  revert actions
  rw [← same]
  intro actions
  exact throughout_invariant step_watching Watching.reported
    (start_watching config.registrations Pipeline.outputSocketMap) actions

namespace StatisticsThread

/-- A datagram and a report, 20 s after the start of the clock. -/
def firstReport : List (Action Edf.stage) :=
  (Pipeline.ofIngress (.tick 20000000000) :: Pipeline.firstSent).map .pipeline ++
    List.replicate 14 .statistics

/-- A datagram that is dropped, one that is sent, and a report 100 ms after the first. -/
def nextReport : List (Action Edf.stage) :=
  (Pipeline.nextSent ++ [Pipeline.ofIngress (.tick 100000000)]).map .pipeline ++
    List.replicate 14 .statistics

end StatisticsThread

open StatisticsThread in
theorem two_reports_only_read :
    PipelineConfig.default.scheduler ≠ .mcEdfElastic ∧
      Throughout StatisticsThread.step Reported ((PipelineConfig.default.start, []), .start)
        (firstReport ++ nextReport) ∧
      (TransitionSystem.run StatisticsThread.step ((PipelineConfig.default.start, []), .start)
          (firstReport ++ nextReport)).map (fun watched => watched.2.sent.map fun report =>
            (report .high).map fun snapshot =>
              (snapshot.totalDrops, snapshot.statistics.packetCount, snapshot.statistics.p50)) =
        some [some (0, 1, some 100000), some (1, 2, some 100000)] :=
  ⟨by decide, PipelineConfig.default.reports_only_read (by decide) _, by decide +kernel⟩

end EdfPipeline
