import EdfPipeline.Egress.Drain
import EdfPipeline.Metrics.Collector

/-!
# Isolation of the egress from its metrics

Every packet the egress receives becomes one event, so the channel holds as many
events as the egress is ahead of Metrics-Processor. `record_packet` waits once
that is the capacity of the channel.
-/

set_option autoImplicit false

namespace EdfPipeline

open TransitionSystem

namespace Egress

/-- One packet is on its way to `record_packet`, or none. -/
def Pc.unrecorded : Pc → Nat
  | .measure _ _ _ | .judge _ _ _ _ | .record _ _ _ => 1
  | .top | .poll _ | .send _ _ _ | .returned => 0

namespace State

/-- The event of a `record_packet` that completes. -/
def records (state : State) : Action → Option MetricsEvent
  | .run =>
      match state.pc with
      | .record _ _ event => if state.events.length < eventCapacity then some event else none
      | _ => none
  | _ => none

/-- Packets received become unrecorded packets and these become events. -/
structure Traffic (state : State) (action : Action) (next : State) : Prop where
  events : next.events = state.events ++ (state.records action).toList
  packets : next.dequeued.length + state.pc.unrecorded =
    state.dequeued.length + next.pc.unrecorded + (state.records action).toList.length

theorem Traffic.quiet {state next : State} {action : Action} (quiet : state.records action = none)
    (events : next.events = state.events) (dequeued : next.dequeued = state.dequeued)
    (unrecorded : next.pc.unrecorded = state.pc.unrecorded) : Traffic state action next where
  events := by rw [quiet, events, Option.toList_none, List.append_nil]
  packets := by rw [quiet, dequeued, unrecorded, Option.toList_none, List.length_nil, Nat.add_zero]

theorem unrecorded_recordPacket (state : State) (rest : List Priority) (packet : Packet)
    (event : MetricsEvent) : (state.recordPacket rest packet event).pc.unrecorded = 0 := by
  obtain ⟨_, _, _, _, reached⟩ := recordPacket_frame state rest packet event
  rcases reached with polling | ⟨socket, sending⟩
  · rw [polling]
    rfl
  · rw [sending]
    rfl

theorem recordPacket_traffic {state : State} {rest : List Priority} {packet : Packet}
    {event : MetricsEvent} (place : state.pc = .record rest packet event)
    (room : state.events.length < eventCapacity) :
    Traffic state .run (state.recordPacket rest packet event) := by
  have records : state.records .run = some event := by simp only [State.records, place, if_pos room]
  obtain ⟨events, _, _, dequeued, _⟩ := recordPacket_frame state rest packet event
  refine ⟨?_, ?_⟩
  · rw [records, events, Option.toList_some]
  · rw [records, dequeued, unrecorded_recordPacket, place]
    rfl

theorem step_traffic {state next : State} {action : Action} (other : action ≠ .takeEvent)
    (stepped : state.step action = some next) : Traffic state action next := by
  cases step_moves stepped with
  | arrive | disconnect | tick | stop | wouldBlock => exact .quiet rfl rfl rfl rfl
  | takeEvent waiting => exact absurd rfl other
  | receive place received =>
      have quiet : state.records .run = none := by simp only [State.records, place]
      refine ⟨by rw [quiet]; simp [receive], ?_⟩
      rw [quiet, place]
      simp [receive, Pc.unrecorded]
  | record place room => exact recordPacket_traffic place room
  | sent place | failed place => exact .quiet rfl rfl rfl (by rw [place]; rfl)
  | enter place | quit place | leave place | skip place | close place | measure place
  | judge place =>
      exact .quiet (by simp only [State.records, place]) rfl rfl (by rw [place]; rfl)

end State

end Egress

namespace MetricsCollector

open Egress (MetricsEvent eventCapacity loaded)

namespace State

/-- Wherever the egress calls `record_packet`, the call completes; a full channel
loses the event. -/
def Isolated (state : State) : Prop :=
  ∀ rest packet event, state.egress.pc = .record rest packet event →
    ∃ next, state.step (.egress .run) = some next ∧ next.egress.pc.unrecorded = 0 ∧
      next.egress.events =
        if state.egress.events.length < eventCapacity then state.egress.events ++ [event]
        else state.egress.events

/-- The event Metrics-Processor takes off the channel. -/
def taken (state : State) : Action → Option MetricsEvent
  | .processor =>
      match state.processor with
      | .collect => if state.batch.length < batchSize then state.egress.events.head? else none
      | _ => none
  | _ => none

/-- Wherever the egress calls `record_packet`, it has received no more packets
than Metrics-Processor has taken events and the channel has room for. -/
def KeepsUp (history : State × Past State Action) : Prop :=
  ∀ rest packet event, history.1.egress.pc = .record rest packet event →
    history.1.egress.dequeued.length ≤ (observed taken history.2).length + eventCapacity

/-- Packets received have become events that were taken or wait on the channel. -/
def Balanced (history : State × Past State Action) : Prop :=
  history.1.egress.dequeued.length =
    (observed taken history.2).length + history.1.egress.events.length +
      history.1.egress.pc.unrecorded

/-- A step of Metrics-Processor changes nothing in the egress but the events it takes. -/
theorem processorStep_takes {state next : State} (stepped : state.processorStep = some next) :
    ∃ events, next.egress = { state.egress with events } ∧
      state.egress.events = (state.taken .processor).toList ++ events := by
  have unchanged : state.egress = { state.egress with events := state.egress.events } := rfl
  unfold processorStep at stepped
  split at stepped
  · rename_i collecting
    split at stepped
    · rename_i some_left
      split at stepped
      · rename_i event events waiting
        cases stepped
        exact ⟨events, rfl, by simp [taken, collecting, some_left, waiting]⟩
      · rename_i empty
        have nothing : (state.taken .processor).toList = [] := by
          simp [taken, collecting, some_left, empty]
        split at stepped
        · cases stepped
          exact ⟨state.egress.events, unchanged, by rw [nothing, List.nil_append]⟩
        · split at stepped <;> cases stepped <;>
            exact ⟨state.egress.events, unchanged, by rw [nothing, List.nil_append]⟩
    · rename_i full
      cases stepped
      exact ⟨state.egress.events, unchanged, by simp [taken, collecting, full]⟩
  · rename_i event rest updating
    cases stepped
    exact ⟨state.egress.events, unchanged, by simp [taken, updating]⟩
  · rename_i updating
    cases stepped
    exact ⟨state.egress.events, unchanged, by simp [taken, updating]⟩
  · cases stepped

theorem step_egress {state next : State} {action : Egress.Action}
    (stepped : state.step (.egress action) = some next) :
    action ≠ .takeEvent ∧ ∃ egress, state.egress.step action = some egress ∧
      next = { state with egress } := by
  have other : action ≠ .takeEvent := by
    rintro rfl
    cases stepped
  have mapped : (state.egress.step action).map (fun egress => { state with egress }) = some next := by
    cases action <;> first | exact stepped | exact absurd rfl other
  obtain ⟨egress, moved, same⟩ := Option.map_eq_some_iff.mp mapped
  exact ⟨other, egress, moved, same.symm⟩

theorem step_balanced {history next : State × Past State Action} {action : Action}
    (balanced : Balanced history) (stepped : recorded step history action = some next) :
    Balanced next := by
  obtain ⟨state, past⟩ := history
  obtain ⟨after, later⟩ := next
  obtain ⟨moved, same⟩ := recorded_eq_some.mp stepped
  simp only at moved same
  subst same
  simp only [Balanced, observed_append, List.length_append] at balanced ⊢
  cases action with
  | egress action =>
      obtain ⟨other, egress, egressMoved, rfl⟩ := step_egress moved
      have traffic := Egress.State.step_traffic other egressMoved
      have packets := traffic.packets
      simp only [traffic.events, List.length_append, taken, Option.toList_none, List.length_nil]
      omega
  | processor =>
      obtain ⟨events, unchanged, split⟩ := processorStep_takes moved
      simp only [split, List.length_append] at balanced
      simp only [unchanged]
      omega
  | dropSenders =>
      simp only [step] at moved
      split at moved
      · cases moved
        exact balanced
      · cases moved

theorem start_balanced (receivers : PriorityTable (Channel Packet))
    (socketMap : PriorityTable (Option (List Egress.Socket))) :
    Balanced (start receivers socketMap, []) := rfl

/-- `record_packet` completes exactly if there is room on the channel. -/
theorem Balanced.isolated_iff {history : State × Past State Action} (balanced : Balanced history) :
    history.1.Isolated ↔ KeepsUp history := by
  obtain ⟨state, past⟩ := history
  refine forall_congr' fun rest => forall_congr' fun packet => forall_congr' fun event =>
    forall_congr' fun place => ?_
  have one : state.egress.pc.unrecorded = 1 := by
    simp only at place
    rw [place]
    rfl
  simp only [Balanced, one] at balanced place ⊢
  constructor
  · rintro ⟨next, stepped, _⟩
    obtain ⟨_, egress, moved, _⟩ := step_egress stepped
    simp only [Egress.State.step, Egress.State.runStep, place] at moved
    split at moved
    · omega
    · cases moved
  · intro ahead
    have room : state.egress.events.length < eventCapacity := by omega
    have moved : state.egress.runStep = some (state.egress.recordPacket rest packet event) := by
      simp only [Egress.State.runStep, place, if_pos room]
    obtain ⟨events, _⟩ := Egress.State.recordPacket_frame state.egress rest packet event
    refine ⟨{ state with egress := state.egress.recordPacket rest packet event }, ?_, ?_, ?_⟩
    · simp only [step, Egress.State.step, moved, Option.map_some]
    · exact Egress.State.unrecorded_recordPacket state.egress rest packet event
    · rw [if_pos room, events]

end State

/-- In every run the egress never waits for its metrics exactly if it is never
ahead of Metrics-Processor by more packets than the channel holds events. -/
theorem isolated_iff_keepsUp (receivers : PriorityTable (Channel Packet))
    (socketMap : PriorityTable (Option (List Egress.Socket))) (actions : List Action) :
    Throughout State.step State.Isolated (State.start receivers socketMap) actions ↔
      Throughout (recorded State.step) State.KeepsUp (State.start receivers socketMap, []) actions :=
  throughout_recorded.symm.trans
    (throughout_iff State.step_balanced State.Balanced.isolated_iff
      (State.start_balanced receivers socketMap) actions)

end MetricsCollector

/-! ## A burst while Metrics-Processor is stalled -/

namespace Egress

namespace State

/-- High packets wait, nothing else does, and no socket is registered. -/
structure Bursting (waiting recorded : Nat) (state : State) : Prop where
  place : state.pc = .poll Priority.all
  running : state.running = true
  connected : ∀ priority, (state.receivers priority).disconnected = false
  waits : (state.queue .high).length = waiting
  others : ∀ priority, priority ≠ .high → state.queue priority = []
  unsent : ∀ priority, state.socketMap priority = none
  recorded : state.events.length = recorded

def highEvent (state : State) (packet : Packet) : MetricsEvent where
  priority := .high
  latency := state.clock - packet.timestamp
  deadlineMissed := decide (state.clock > packet.deadline)

/-- The High packet that was received is about to be recorded. -/
def received (state : State) (packet : Packet) (more : List Packet) : State :=
  { state.receive [.medium, .low, .bestEffort] .high packet
      { state.receivers .high with queue := more } with
    pc := .record [.medium, .low, .bestEffort] packet (state.highEvent packet) }

/-- Up to the call of `record_packet`. -/
theorem receive_run {state : State} {packet : Packet} {more : List Packet}
    (place : state.pc = .poll Priority.all) (waits : state.queue .high = packet :: more) :
    run state (List.replicate 3 .run) = some (state.received packet more) := by
  have took := tryRecv_cons waits
  have first : state.runStep = some (state.receive [.medium, .low, .bestEffort] .high packet
      { state.receivers .high with queue := more }) := by
    simp only [runStep, place, Priority.all, took]
  simp only [List.replicate, TransitionSystem.run_cons, step, first, Option.bind_some]
  rfl

/-- From `record_packet` on, with room for the event. -/
theorem finish_run {state : State} {packet : Packet} {event : MetricsEvent}
    (place : state.pc = .record [.medium, .low, .bestEffort] packet event)
    (running : state.running = true) (unsent : ∀ priority, state.socketMap priority = none)
    (empty : ∀ priority, priority ≠ .high → (state.receivers priority).tryRecv = .error .empty)
    (room : state.events.length < eventCapacity) :
    run state (List.replicate 6 .run) = some { state with
      events := state.events ++ [event]
      pc := .poll Priority.all
      served := none } := by
  have recorded : state.runStep = some { state with
      events := state.events ++ [event]
      pc := .poll [.medium, .low, .bestEffort] } := by
    simp only [runStep, place, if_pos room, recordPacket, unsent]
  simp only [List.replicate, TransitionSystem.run_cons, step, recorded, Option.bind_some]
  simp [TransitionSystem.run, runStep, empty, running]

def onePass : List Action := List.replicate 3 .run ++ List.replicate 6 .run

/-- A pass over a burst adds an event to the channel. -/
theorem Bursting.pass {state : State} {waiting recorded : Nat}
    (bursting : Bursting (waiting + 1) recorded state) (room : recorded < eventCapacity) :
    ∃ next, run state onePass = some next ∧ Bursting waiting (recorded + 1) next := by
  obtain ⟨packet, more, waits⟩ := List.exists_cons_of_length_eq_add_one bursting.waits
  have queues := receive_queue state [.medium, .low, .bestEffort] .high packet
    { state.receivers .high with queue := more }
  have others (priority : Priority) (other : priority ≠ .high) :
      (state.received packet more).queue priority = [] :=
    (queues priority).trans ((if_neg other).trans (bursting.others priority other))
  have connected (priority : Priority) :
      ((state.received packet more).receivers priority).disconnected = false := by
    refine PriorityTable.forall_set (fun _ (receiver : Channel Packet) =>
      receiver.disconnected = false) bursting.connected ?_ priority
    exact bursting.connected .high
  have ran : run state onePass = some { state.received packet more with
      events := state.events ++ [state.highEvent packet]
      pc := .poll Priority.all
      served := none } := by
    rw [onePass, run, TransitionSystem.run_append, ← run, receive_run bursting.place waits]
    refine finish_run rfl bursting.running bursting.unsent ?_ (bursting.recorded ▸ room)
    intro priority other
    exact tryRecv_nil (others priority other) (connected priority)
  refine ⟨_, ran, rfl, bursting.running, connected, ?_, others, bursting.unsent, ?_⟩
  · have left : more.length + 1 = waiting + 1 := by
      rw [← bursting.waits, waits, List.length_cons]
    exact (congrArg List.length (queues .high)).trans (Nat.succ.inj left)
  · rw [List.length_append, List.length_singleton]
    exact congrArg Nat.succ bursting.recorded

theorem Bursting.passes {state : State} {waiting recorded : Nat} (count : Nat)
    (bursting : Bursting (waiting + count) recorded state)
    (room : recorded + count ≤ eventCapacity) :
    ∃ next, run state (List.replicate count onePass).flatten = some next ∧
      Bursting waiting (recorded + count) next := by
  induction count generalizing state recorded with
  | zero => exact ⟨state, rfl, bursting⟩
  | succ count ih =>
      obtain ⟨middle, ran, after⟩ := bursting.pass (by omega)
      obtain ⟨next, continued, reached⟩ := ih after (by omega)
      refine ⟨next, ?_, ?_⟩
      · rw [List.replicate_succ, List.flatten_cons, run, TransitionSystem.run_append, ← run, ran]
        exact continued
      · rwa [Nat.add_assoc, Nat.add_comm 1] at reached

end State

end Egress

namespace MetricsCollector

open Egress (MetricsEvent eventCapacity loaded)

namespace State

/-- Without Metrics-Processor the egress runs as by itself. -/
theorem run_egress {actions : List Egress.Action} (others : ∀ action ∈ actions, action ≠ .takeEvent)
    (state : State) : run state (actions.map .egress) =
      (Egress.run state.egress actions).map fun egress => { state with egress } := by
  induction actions generalizing state with
  | nil => rfl
  | cons action rest ih =>
      obtain ⟨other, others⟩ := List.forall_mem_cons.mp others
      have moved : state.step (.egress action) =
          (state.egress.step action).map fun egress => { state with egress } := by
        cases action <;> first | rfl | exact absurd rfl other
      rw [List.map_cons, run, TransitionSystem.run_cons, moved, Egress.run,
        TransitionSystem.run_cons]
      cases state.egress.step action with
      | none => rfl
      | some egress => exact ih others { state with egress }

end State

def burst : PriorityTable (List Packet)
  | .high => (List.range 1025).map fun id => Egress.backlogPacket id .high
  | .medium | .low | .bestEffort => []

/-- The egress serves 1024 packets and receives another one. -/
def burstRun : List Egress.Action :=
  .run :: ((List.replicate eventCapacity Egress.State.onePass).flatten ++ List.replicate 3 .run)

/-- All events of the packets served are on the channel, which is full. -/
theorem burstRun_fills :
    ∃ reached packet event, Egress.run (.start (loaded burst) fun _ => none) burstRun = some reached ∧
      reached.pc = .record [.medium, .low, .bestEffort] packet event ∧
        reached.events.length = eventCapacity := by
  let entered := { Egress.State.start (loaded burst) (fun _ => none) with
    pc := .poll Priority.all, served := none }
  have first : (Egress.State.start (loaded burst) fun _ => none).step .run = some entered := rfl
  have waiting : Egress.State.Bursting (1 + eventCapacity) 0 entered := by
    refine ⟨rfl, rfl, fun _ => rfl, ?_, ?_, fun _ => rfl, rfl⟩
    · simp [entered, Egress.State.queue, Egress.State.start, loaded, burst, eventCapacity]
    · intro priority other
      cases priority with
      | high => exact absurd rfl other
      | medium | low | bestEffort => rfl
  obtain ⟨middle, ran, bursting⟩ := waiting.passes eventCapacity (Nat.zero_add _).le
  obtain ⟨packet, more, waits⟩ := List.exists_cons_of_length_eq_add_one bursting.waits
  refine ⟨middle.received packet more, packet, _, ?_, rfl, ?_⟩
  · rw [burstRun, Egress.run, TransitionSystem.run_cons, first, Option.bind_some,
      TransitionSystem.run_append, ← Egress.run, ran]
    exact Egress.State.receive_run bursting.place waits
  · exact bursting.recorded.trans (Nat.zero_add _)

/-- With Metrics-Processor stalled, the egress waits for it at the 1025th packet. -/
theorem record_blocks :
    ¬ Throughout State.step State.Isolated (.start (loaded burst) fun _ => none)
      (burstRun.map .egress) := by
  intro isolated
  obtain ⟨reached, packet, event, ran, place, full⟩ := burstRun_fills
  have others : ∀ action ∈ burstRun, action ≠ .takeEvent := by
    intro action member
    simp only [burstRun, Egress.State.onePass, List.mem_cons, List.mem_append, List.mem_flatten,
      List.mem_replicate] at member
    rcases member with rfl | ⟨pass, ⟨_, rfl⟩, inPass⟩ | ⟨_, rfl⟩
    · simp
    · rcases List.mem_append.mp inPass with early | late
      · simp [(List.mem_replicate.mp early).2]
      · simp [(List.mem_replicate.mp late).2]
    · simp
  have lifted := State.run_egress others (.start (loaded burst) fun _ => none)
  have waits := throughout_iff_prefixes.mp isolated _ (List.prefix_refl _) _
    (lifted.trans (congrArg (Option.map _) ran))
  obtain ⟨next, stepped, _⟩ := waits _ packet event place
  obtain ⟨_, egress, moved, _⟩ := State.step_egress stepped
  simp [Egress.State.step, Egress.State.runStep, place, full] at moved

end MetricsCollector

end EdfPipeline
