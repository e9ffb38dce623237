import EdfPipeline.Egress.StrictPriority

/-!
# Draining a backlog

Without further arrivals a pass takes one packet of every class that has any, so
the classes leave in order exactly if no class above a waiting one holds more
than one packet.
-/

set_option autoImplicit false

namespace EdfPipeline.Egress

def NoArrival (action : Action) : Prop := ∀ priority packet, action ≠ .arrive priority packet

def loaded (contents : PriorityTable (List Packet)) : PriorityTable (Channel Packet) :=
  fun priority => { queue := contents priority, disconnected := false }

/-- Above a class with packets, every class holds at most one. -/
def SingleAbove (contents : PriorityTable (List Packet)) : Prop :=
  ∀ higher lower : Priority, higher.Above lower → contents lower ≠ [] →
    (contents higher).length ≤ 1

namespace State

/-- No packet was received after one of a lower class. -/
def InClassOrder (state : State) : Prop :=
  (state.dequeued.map Prod.fst).Pairwise fun earlier later => ¬ later.Above earlier

/-- What a backlog with single packets keeps while it drains. -/
structure Draining (state : State) : Prop where
  singles : SingleAbove state.queue
  suffix : ∀ rest ∈ state.pc.rest, rest <:+ Priority.all
  passedOver : ∀ rest ∈ state.pc.rest, ∀ passed, passed ∉ rest → ∀ waiting ∈ rest,
    state.queue waiting ≠ [] → state.queue passed = []
  exhausted : ∀ received ∈ state.dequeued.map Prod.fst, ∀ higher : Priority,
    higher.Above received → state.queue higher = []
  ordered : state.InClassOrder

theorem start_draining {contents : PriorityTable (List Packet)} (singles : SingleAbove contents)
    (socketMap : PriorityTable (Option (List Socket))) :
    (start (loaded contents) socketMap).Draining where
  singles := singles
  suffix := by simp [start, Pc.rest]
  passedOver := by simp [start, Pc.rest]
  exhausted := by simp [start]
  ordered := List.Pairwise.nil

theorem Draining.quiet {state next : State} (draining : state.Draining) (quiet : Quiet state next)
    (suffix : ∀ rest ∈ next.pc.rest, rest <:+ Priority.all)
    (passedOver : ∀ rest ∈ next.pc.rest, ∀ passed, passed ∉ rest → ∀ waiting ∈ rest,
      state.queue waiting ≠ [] → state.queue passed = []) : next.Draining where
  singles := quiet.queue ▸ draining.singles
  suffix := suffix
  passedOver := quiet.queue ▸ passedOver
  exhausted := by
    rw [quiet.queue, quiet.dequeued]
    exact draining.exhausted
  ordered := by
    rw [InClassOrder, quiet.dequeued]
    exact draining.ordered

theorem receive_queue (state : State) (rest : List Priority) (priority : Priority) (packet : Packet)
    (remaining : Channel Packet) (other : Priority) :
    (state.receive rest priority packet remaining).queue other =
      if other = priority then remaining.queue else state.queue other := by
  simp only [queue, receive, PriorityTable.set_apply]
  split <;> rfl

theorem receive_suffix {state : State} (rest : List Priority) {priority : Priority}
    {packet : Packet} {remaining : Channel Packet}
    (received : state.queue priority = packet :: remaining.queue) (other : Priority) :
    (state.receive rest priority packet remaining).queue other <:+ state.queue other := by
  rw [receive_queue]
  split
  · rename_i same
    rw [same, received]
    exact List.suffix_cons packet remaining.queue
  · exact List.suffix_refl _

theorem receive_draining {state : State} (draining : state.Draining) {rest : List Priority}
    {priority : Priority} {packet : Packet} {remaining : Channel Packet}
    (polled : state.pc.rest = some (priority :: rest))
    (received : state.queue priority = packet :: remaining.queue) :
    (state.receive rest priority packet remaining).Draining := by
  have shorter := receive_suffix rest received
  have suffix := draining.suffix _ polled
  have filled : state.queue priority ≠ [] := by simp [received]
  have emptied (other : Priority) (empty : state.queue other = []) :
      (state.receive rest priority packet remaining).queue other = [] :=
    List.suffix_nil.mp (empty ▸ shorter other)
  have still (other : Priority)
      (waits : (state.receive rest priority packet remaining).queue other ≠ []) :
      state.queue other ≠ [] := fun empty => waits (emptied other empty)
  have above (higher : Priority) (isAbove : higher.Above priority) : state.queue higher = [] := by
    refine draining.passedOver _ polled higher ?_ priority List.mem_cons_self filled
    rw [List.mem_cons, Priority.mem_tail_iff suffix]
    rintro (same | below)
    · exact absurd (same ▸ isAbove) (Nat.lt_irrefl _)
    · exact absurd (Nat.lt_trans isAbove below) (Nat.lt_irrefl _)
  refine ⟨?_, ?_, ?_, ?_, ?_⟩
  · intro higher lower isAbove waits
    exact Nat.le_trans (shorter higher).length_le
      (draining.singles higher lower isAbove (still lower waits))
  · intro later here
    cases here
    exact (List.suffix_cons priority rest).trans suffix
  · intro later here passed gone waiting pending waits
    cases here
    by_cases same : passed = priority
    · have below := (Priority.mem_tail_iff suffix).mp pending
      have single := draining.singles priority waiting below (still waiting waits)
      rw [received, List.length_cons] at single
      rw [receive_queue, if_pos same]
      exact List.length_eq_zero_iff.mp (Nat.le_zero.mp (Nat.le_of_succ_le_succ single))
    · refine emptied passed (draining.passedOver _ polled passed ?_ waiting
        (List.mem_cons_of_mem _ pending) (still waiting waits))
      simp [same, gone]
  · intro before listed higher isAbove
    rw [receive, List.map_append, List.mem_append] at listed
    rcases listed with earlier | new
    · exact emptied higher (draining.exhausted before earlier higher isAbove)
    · rw [List.map_singleton, List.mem_singleton] at new
      subst new
      exact emptied higher (above higher isAbove)
  · rw [InClassOrder, receive, List.map_append, List.pairwise_append]
    refine ⟨draining.ordered, List.pairwise_singleton _ _, ?_⟩
    intro earlier listed later new
    rw [List.map_singleton, List.mem_singleton] at new
    subst new
    intro isAbove
    exact filled (draining.exhausted earlier listed _ isAbove)

theorem step_draining {state next : State} {action : Action} (draining : state.Draining)
    (closed : NoArrival action) (stepped : state.step action = some next) : next.Draining := by
  cases step_move stepped with
  | arrive => exact absurd rfl (closed _ _)
  | stay quiet served place =>
      exact draining.quiet quiet (place ▸ draining.suffix) (place ▸ draining.passedOver)
  | leave quiet place => exact draining.quiet quiet (by simp [place]) (by simp [place])
  | enter quiet served place =>
      refine draining.quiet quiet ?_ ?_
      · intro rest here
        rw [place] at here
        cases here
        exact List.suffix_refl _
      · intro rest here passed gone
        rw [place] at here
        cases here
        exact absurd (Priority.mem_all passed) gone
  | skip polled empty quiet served place =>
      rename_i priority rest
      refine draining.quiet quiet ?_ ?_
      · intro later here
        rw [place] at here
        cases here
        exact (List.suffix_cons priority rest).trans (draining.suffix _ polled)
      · intro later here passed gone waiting pending waits
        rw [place] at here
        cases here
        by_cases same : passed = priority
        · exact same ▸ empty
        · refine draining.passedOver _ polled passed ?_ waiting (List.mem_cons_of_mem _ pending) waits
          simp [same, gone]
  | receive polled received => exact receive_draining draining polled received

/-! ## Two passes over a backlog -/

abbrev Steps : State → State → Prop :=
  Relation.ReflTransGen fun before after =>
    ∃ action, NoArrival action ∧ before.step action = some after

theorem Steps.run {state next : State} (stepped : state.runStep = some next) : Steps state next :=
  .single ⟨.run, by simp [NoArrival], stepped⟩

/-- Running, with all senders in place and no event waiting. -/
structure Ready (state : State) : Prop where
  running : state.running = true
  connected : ∀ priority, (state.receivers priority).disconnected = false
  recorded : state.events = []

theorem recordPacket_frame (state : State) (rest : List Priority) (packet : Packet)
    (event : MetricsEvent) :
    (state.recordPacket rest packet event).events = state.events ++ [event] ∧
      (state.recordPacket rest packet event).running = state.running ∧
      (state.recordPacket rest packet event).receivers = state.receivers ∧
      (state.recordPacket rest packet event).dequeued = state.dequeued ∧
      ((state.recordPacket rest packet event).pc = .poll rest ∨
        ∃ socket, (state.recordPacket rest packet event).pc = .send rest packet socket) := by
  unfold recordPacket
  cases sockets : state.socketMap event.priority with
  | none => simp [sockets]
  | some listed => cases listed <;> simp [sockets]

theorem record_steps {state : State} {rest : List Priority} {packet : Packet}
    {event : MetricsEvent} (ready : state.Ready) (place : state.pc = .record rest packet event) :
    ∃ next, Steps state next ∧ next.Ready ∧ next.pc = .poll rest ∧
      next.receivers = state.receivers ∧ next.dequeued = state.dequeued := by
  obtain ⟨events, running, receivers, dequeued, reached⟩ :=
    recordPacket_frame state rest packet event
  rw [ready.recorded, List.nil_append] at events
  have recorded : state.runStep = some (state.recordPacket rest packet event) := by
    simp [runStep, place, ready.recorded, eventCapacity]
  have taken : (state.recordPacket rest packet event).step .takeEvent =
      some { state.recordPacket rest packet event with events := [] } := by
    simp [step, events]
  have steps := (Steps.run recorded).tail ⟨.takeEvent, by simp [NoArrival], taken⟩
  have connected : ∀ priority,
      ((state.recordPacket rest packet event).receivers priority).disconnected = false :=
    receivers ▸ ready.connected
  rcases reached with polling | ⟨socket, sending⟩
  · exact ⟨_, steps, ⟨running.trans ready.running, connected, rfl⟩, polling, receivers, dequeued⟩
  · have sent : { state.recordPacket rest packet event with events := [] }.step (.sendTo .failed) =
        some { state.recordPacket rest packet event with events := [], pc := .poll rest } := by
      simp [step, sendStep, sending]
    refine ⟨_, steps.tail ⟨.sendTo .failed, by simp [NoArrival], sent⟩, ?_, rfl, receivers, dequeued⟩
    exact ⟨running.trans ready.running, connected, rfl⟩

theorem tryRecv_cons {state : State} {priority : Priority} {packet : Packet} {more : List Packet}
    (waits : state.queue priority = packet :: more) :
    (state.receivers priority).tryRecv =
      .ok (packet, { state.receivers priority with queue := more }) := by
  rw [queue] at waits
  rw [Channel.tryRecv, waits]

theorem tryRecv_nil {state : State} {priority : Priority} (empty : state.queue priority = [])
    (connected : (state.receivers priority).disconnected = false) :
    (state.receivers priority).tryRecv = .error .empty := by
  rw [queue] at empty
  rw [Channel.tryRecv, empty, connected]
  rfl

theorem serve_steps {state : State} {priority : Priority} {rest : List Priority} {packet : Packet}
    {more : List Packet} (ready : state.Ready) (place : state.pc = .poll (priority :: rest))
    (waiting : state.queue priority = packet :: more) :
    ∃ next, Steps state next ∧ next.Ready ∧ next.pc = .poll rest ∧
      next.queue = PriorityTable.set state.queue priority more ∧
      next.dequeued = state.dequeued ++ [(priority, packet)] := by
  have received := tryRecv_cons waiting
  have first : state.runStep = some (state.receive rest priority packet
      { state.receivers priority with queue := more }) := by
    simp only [runStep, place, received]
  let served := state.receive rest priority packet { state.receivers priority with queue := more }
  let measured := { served with
    pc := .judge rest priority packet (served.clock - packet.timestamp) }
  let judged := { measured with
    pc := .record rest packet
      { priority, latency := served.clock - packet.timestamp
        deadlineMissed := decide (served.clock > packet.deadline) } }
  have measure : served.runStep = some measured := rfl
  have judge : measured.runStep = some judged := rfl
  have before := ((Steps.run first).trans (Steps.run measure)).trans (Steps.run judge)
  have connected : ∀ other, (judged.receivers other).disconnected = false :=
    PriorityTable.forall_set (fun _ (receiver : Channel Packet) => receiver.disconnected = false)
      ready.connected (ready.connected priority)
  have judgedReady : judged.Ready := ⟨ready.running, connected, ready.recorded⟩
  obtain ⟨next, after, nextReady, polling, receivers, dequeued⟩ := record_steps judgedReady rfl
  refine ⟨next, before.trans after, nextReady, polling, ?_, dequeued⟩
  funext other
  rw [queue, receivers, PriorityTable.set_apply]
  exact receive_queue state rest priority packet _ other

theorem poll_steps {rest : List Priority} (distinct : rest.Nodup) {state : State}
    (ready : state.Ready) (place : state.pc = .poll rest) :
    ∃ next, Steps state next ∧ next.Ready ∧ next.pc = .poll [] ∧
      next.queue = (fun priority =>
        if priority ∈ rest then (state.queue priority).tail else state.queue priority) ∧
      next.dequeued.map Prod.fst =
        state.dequeued.map Prod.fst ++ rest.filter fun priority => state.queue priority ≠ [] := by
  induction rest generalizing state with
  | nil => exact ⟨state, .refl, ready, place, by simp, by simp⟩
  | cons priority rest ih =>
      obtain ⟨fresh, distinct⟩ := List.nodup_cons.mp distinct
      cases waiting : state.queue priority with
      | nil =>
          have failed := tryRecv_nil waiting (ready.connected priority)
          have skipped : state.runStep = some { state with pc := .poll rest } := by
            simp only [runStep, place, failed]
          have skippedReady : { state with pc := .poll rest }.Ready :=
            ⟨ready.running, ready.connected, ready.recorded⟩
          obtain ⟨next, after, nextReady, polling, queues, dequeued⟩ := ih distinct skippedReady rfl
          have unmoved : { state with pc := .poll rest }.queue = state.queue := rfl
          refine ⟨next, (Steps.run skipped).trans after, nextReady, polling, ?_, ?_⟩
          · rw [queues, unmoved]
            funext other
            by_cases same : other = priority
            · subst same
              simp [waiting]
            · simp [same]
          · rw [dequeued, List.filter_cons_of_neg (by simp [waiting])]
            rfl
      | cons packet more =>
          obtain ⟨middle, before, middleReady, reached, moved, received⟩ :=
            serve_steps ready place waiting
          obtain ⟨next, after, nextReady, polling, queues, dequeued⟩ :=
            ih distinct middleReady reached
          refine ⟨next, before.trans after, nextReady, polling, ?_, ?_⟩
          · rw [queues, moved]
            funext other
            by_cases same : other = priority
            · subst same
              simp [fresh, waiting]
            · simp [same]
          · rw [dequeued, received, moved, List.filter_cons_of_pos (by simp [waiting])]
            simp only [List.map_append, List.map_cons, List.map_nil, List.append_assoc,
              List.singleton_append]
            congr 2
            refine List.filter_congr ?_
            intro other member
            rw [PriorityTable.set_other]
            rintro rfl
            exact fresh member

/-- A pass takes the first packet of every queue that has one. -/
theorem pass_steps {state : State} (ready : state.Ready) (place : state.pc = .top) :
    ∃ next, Steps state next ∧ next.Ready ∧ next.pc = .top ∧
      next.queue = (fun priority => (state.queue priority).tail) ∧
      next.dequeued.map Prod.fst = state.dequeued.map Prod.fst ++
        Priority.all.filter fun priority => state.queue priority ≠ [] := by
  let entered := { state with pc := .poll Priority.all, served := none }
  have enter : state.runStep = some entered := by
    simp [runStep, place, ready.running, entered]
  have enteredReady : entered.Ready := ⟨ready.running, ready.connected, ready.recorded⟩
  obtain ⟨middle, before, middleReady, reached, queues, dequeued⟩ :=
    poll_steps (by decide) enteredReady rfl
  have left : middle.runStep = some { middle with pc := .top } := by
    simp only [runStep, reached]
  refine ⟨_, ((Steps.run enter).trans before).trans (Steps.run left),
    ⟨middleReady.running, middleReady.connected, middleReady.recorded⟩, rfl, ?_, dequeued⟩
  refine queues.trans ?_
  funext priority
  rw [if_pos (Priority.mem_all priority)]
  rfl

end State

/-- A backlog leaves in the order of the classes, in every run without arrivals,
exactly if above a class with packets every class holds at most one. -/
theorem inClassOrder_iff_singleAbove (contents : PriorityTable (List Packet))
    (socketMap : PriorityTable (Option (List Socket))) :
    (∀ actions, (∀ action ∈ actions, NoArrival action) →
      TransitionSystem.Throughout State.step State.InClassOrder
        (State.start (loaded contents) socketMap) actions) ↔ SingleAbove contents := by
  constructor
  · intro ordered higher lower isAbove waiting
    by_contra several
    have ready : (State.start (loaded contents) socketMap).Ready := ⟨rfl, fun _ => rfl, rfl⟩
    obtain ⟨first, before, firstReady, top, queues, served⟩ := State.pass_steps ready rfl
    obtain ⟨second, after, _, _, _, servedAgain⟩ := State.pass_steps firstReady top
    obtain ⟨actions, closed, ran⟩ :=
      TransitionSystem.exists_run_of_steps (before.trans after)
    have sorted := TransitionSystem.throughout_iff_prefixes.mp (ordered actions closed) actions
      (List.prefix_refl _) second ran
    rw [State.InClassOrder, servedAgain, served, List.pairwise_append] at sorted
    refine sorted.2.2 lower ?_ higher ?_ isAbove
    · refine List.mem_append_right _ (List.mem_filter.mpr ⟨Priority.mem_all _, ?_⟩)
      exact decide_eq_true waiting
    · refine List.mem_filter.mpr ⟨Priority.mem_all _, decide_eq_true ?_⟩
      rw [queues]
      intro emptied
      have left := congrArg List.length emptied
      rw [List.length_tail] at left
      exact several (Nat.sub_eq_zero_iff_le.mp left)
  · intro singles actions closed
    exact TransitionSystem.throughout_guarded State.step_draining State.Draining.ordered
      (State.start_draining singles socketMap) (TransitionSystem.along_of_forall closed _)

/-- Strict priority, for every contents of the queues: with arrivals, a run skips
no waiting class exactly if each pass that receives repeatedly left the earlier
classes empty; without arrivals, the classes leave in order exactly if above a
class with packets every class holds at most one. -/
theorem strictPriority_iff (contents : PriorityTable (List Packet))
    (socketMap : PriorityTable (Option (List Socket))) :
    (∀ actions,
      TransitionSystem.Along State.step State.NeverSkips
          (State.start (loaded contents) socketMap) actions ↔
        TransitionSystem.Along State.step State.CleanPass
          (State.start (loaded contents) socketMap) actions) ∧
    ((∀ actions, (∀ action ∈ actions, NoArrival action) →
      TransitionSystem.Throughout State.step State.InClassOrder
        (State.start (loaded contents) socketMap) actions) ↔ SingleAbove contents) :=
  ⟨neverSkips_iff_clean_passes (loaded contents) socketMap,
    inClassOrder_iff_singleAbove contents socketMap⟩

/-! ## A backlog of two High packets -/

def backlogPacket (id : Nat) (priority : Priority) : Packet :=
  Packet.fromBuffer id 0 priority [0] (Duration.fromMillis 1)

def backlog : PriorityTable (List Packet)
  | .high => [backlogPacket 0 .high, backlogPacket 1 .high]
  | .medium => [backlogPacket 2 .medium]
  | .low | .bestEffort => []

def backlogRun : List Action := List.replicate 14 .run

/-- The Medium packet is received between the two High ones. -/
theorem medium_overtakes_high :
    ¬ TransitionSystem.Along State.step State.NeverSkips
        (State.start (loaded backlog) fun _ => none) backlogRun ∧
      (run (State.start (loaded backlog) fun _ => none) backlogRun).map
          (fun state => state.dequeued.map Prod.fst) = some [.high, .medium, .high] := by
  decide +kernel

end EdfPipeline.Egress
