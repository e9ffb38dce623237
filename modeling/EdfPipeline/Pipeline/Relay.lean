import EdfPipeline.Egress.Turns
import EdfPipeline.Pipeline.Account

/-!
# The pipeline as a relay

From the input sockets to the output sockets: each packet the egress receives is
attempted once, on the socket of its class whose turn it is, and what is sent is
a datagram that was read, up to the size of a packet.
-/

set_option autoImplicit false

namespace EdfPipeline

open TransitionSystem

namespace MetricsCollector.State

/-- The attempt to send that a step begins. -/
def attempts (state : State) (action : Signal ⊕ Work) : Option (Egress.Socket × Packet) :=
  (egressAction action).bind state.egress.attempts

@[simp] theorem attempts_signal (state : State) (signal : Signal) :
    state.attempts (.inl signal) = none := by
  cases signal <;> rfl

/-- What a step of the egress keeps of the attempts, the threads keep. -/
theorem moves_attempts {invariant : Egress.State → List (Egress.Socket × Packet) → Prop}
    (preserved : ∀ {egress attempted action next}, invariant egress attempted →
      egress.step action = some next → invariant next (attempted ++ (egress.attempts action).toList))
    (apart : ∀ {egress attempted} events, invariant egress attempted →
      invariant { egress with events } attempted)
    {state next : State} {attempted : List (Egress.Socket × Packet)} {action : Signal ⊕ Work}
    (holds : invariant state.egress attempted) (moved : moves state action = some next) :
    invariant next.egress (attempted ++ (state.attempts action).toList) := by
  have still (nothing : state.attempts action = none) {events : List Egress.MetricsEvent}
      (unchanged : next.egress = { state.egress with events }) :
      invariant next.egress (attempted ++ (state.attempts action).toList) := by
    rw [nothing, Option.toList_none, List.append_nil, unchanged]
    exact apart events holds
  cases moves_moved moved with
  | egress told stepped =>
      obtain ⟨_, egress, egressStepped, rfl⟩ := step_egress stepped
      simp only [attempts, told, Option.bind_some]
      exact preserved holds egressStepped
  | processor stepped =>
      obtain ⟨events, unchanged, _⟩ := processorStep_takes stepped
      exact still rfl unchanged
  | publish published =>
      rw [publish_some published] at still ⊢
      exact still rfl rfl

end MetricsCollector.State

namespace Egress.State

theorem step_socketMap {state next : State} {action : Action} (stepped : state.step action = some next) :
    next.socketMap = state.socketMap := by
  cases step_moves stepped with
  | @record rest packet event place room => exact (recordPacket_turn state rest packet event).1
  | arrive | disconnect | tick | stop | takeEvent | enter | quit | leave | receive | skip | close
  | measure | judge | sent | wouldBlock | failed => rfl

end Egress.State

namespace Pipeline

variable {stage : Stage}

/-! ## Datagrams -/

/-- What a step finds on a socket. -/
def datagramOf : Action stage → Option (List UInt8)
  | .inl (.inl action) => Ingress.State.datagram action
  | .inl (.inr action) => action.getRight?.bind stage.datagram
  | .inr _ => none

/-- The datagrams that packets were made of. -/
def received (past : Past (State stage) (Action stage)) : List (List UInt8) :=
  observed (fun state action => (reads state action).bind fun _ => datagramOf action) past

theorem reads_holds {state : State stage} {action : Action stage} {packet : Packet}
    (read : reads state action = some packet) :
    ∃ datagram, datagramOf action = some datagram ∧ packet.Holds datagram := by
  cases action with
  | inl action =>
      cases action with
      | inl action => exact Ingress.State.received_buffer read
      | inr action =>
          cases action with
          | inl signal => cases read
          | inr inner => exact stage.buffers read
  | inr action => cases read

/-- The datagrams and the packets made of them, in the order they were read. -/
theorem received_holds (past : Past (State stage) (Action stage)) :
    List.Forall₂ Packet.Holds (observed reads past) (received past) := by
  induction past using List.reverseRecOn with
  | nil => exact .nil
  | append_singleton past entry ih =>
      rw [observed_append, received, observed_append]
      refine List.rel_append ih ?_
      cases read : reads entry.1 entry.2 with
      | none => exact .nil
      | some packet =>
          obtain ⟨datagram, found, holds⟩ := reads_holds read
          rw [Option.bind_some, found]
          exact .cons holds .nil

/-- The number of a packet is the place of its datagram. -/
theorem Booked.datagram {history : State stage × Past (State stage) (Action stage)}
    (booked : Booked history) {packet : Packet} (read : packet ∈ observed reads history.2) :
    ∃ datagram, (received history.2)[packet.id]? = some datagram ∧ packet.Holds datagram := by
  obtain ⟨place, within, same⟩ := List.getElem_of_mem read
  have numbered : packet.id = place := by
    have number := congrArg (·[place]?) booked.numbers
    simp only [List.getElem?_map, List.getElem?_eq_getElem within, Option.map_some, same,
      List.getElem?_range within] at number
    exact Option.some_inj.mp number
  have holds := received_holds history.2
  have within' : place < (received history.2).length := holds.length_eq ▸ within
  refine ⟨(received history.2)[place], ?_, ?_⟩
  · rw [numbered]
    exact List.getElem?_eq_getElem within'
  · rw [← same]
    exact holds.get within within'

/-! ## Attempts -/

/-- All packets the egress received were read, each once. -/
theorem received_le_read {history : State stage × Past (State stage) (Action stage)}
    (booked : Booked history) :
    (↑(history.1.egress.dequeued.map Prod.snd) : Multiset Packet) ≤ ↑(observed reads history.2) := by
  have sent (priority : Priority) : (↑(history.1.egress.dequeuedOf priority) : Multiset Packet) ≤
      ↑(stage.outputs history.1.scheduler priority).sent := by
    have flows : (stage.outputs history.1.scheduler priority).sent = _ := congrFun booked.joined priority
    rw [flows, Egress.State.flow, ← Multiset.coe_add]
    exact Multiset.le_add_right _ _
  calc
    (↑(history.1.egress.dequeued.map Prod.snd) : Multiset Packet) =
        ∑ priority, ↑(history.1.egress.dequeuedOf priority) := (sum_filterMap_ofClass _).symm
    _ ≤ ∑ priority, ↑(stage.outputs history.1.scheduler priority).sent :=
      Finset.sum_le_sum fun priority _ => sent priority
    _ ≤ handedAll (stage.outputs history.1.scheduler) := by
      rw [handedAll_split]
      exact Multiset.le_add_right _ _
    _ ≤ ↑(observed reads history.2) := by
      rw [booked.contents, Pipeline.contents, Interface.contents]
      exact (Multiset.le_add_left _ _).trans (Multiset.le_add_left _ _)

abbrev attemptOf : State stage → Action stage → Option (Egress.Socket × Packet) :=
  behind MetricsCollector.State.attempts

/-- The sockets a class is sent on. -/
def socketsOf (socketMap : PriorityTable (Option (List Egress.Socket))) (priority : Priority) :
    List Egress.Socket :=
  (socketMap priority).getD []

/-- No socket is registered twice. -/
structure Distinct (socketMap : PriorityTable (Option (List Egress.Socket))) : Prop where
  within : ∀ priority, (socketsOf socketMap priority).Nodup
  across : ∀ priority other, other ≠ priority →
    ∀ socket ∈ socketsOf socketMap priority, socket ∉ socketsOf socketMap other

/-- What the input sockets and the output sockets show of the pipeline. -/
structure Relayed (socketMap : PriorityTable (Option (List Egress.Socket)))
    (history : State stage × Past (State stage) (Action stage)) : Prop where
  turns : ∃ handled, handled <+: history.1.egress.dequeued ∧
    history.1.egress.dequeued.length ≤ handled.length + 1 ∧
    observed attemptOf history.2 = RoundRobin.deal (socketsOf socketMap) handled
  balanced : ∀ priority, ∀ first ∈ socketsOf socketMap priority, ∀ second ∈ socketsOf socketMap priority,
    (observed attemptOf history.2).countP (fun attempt => attempt.1 = first) ≤
      (observed attemptOf history.2).countP (fun attempt => attempt.1 = second) + 1
  once : ((observed attemptOf history.2).map Prod.snd).Nodup
  sent : history.1.egress.transmitted.Sublist (observed attemptOf history.2)
  datagrams : ∀ entry ∈ observed attemptOf history.2, ∃ datagram,
    (received history.2)[entry.2.id]? = some datagram ∧ entry.2.payload = datagram.take maxPacketSize

structure Relaying (socketMap : PriorityTable (Option (List Egress.Socket)))
    (history : State stage × Past (State stage) (Action stage)) : Prop where
  booked : Booked history
  dealt : ∃ handled, history.1.egress.Dealt (observed attemptOf history.2) handled
  sending : history.1.egress.Sending (observed attemptOf history.2)
  sockets : history.1.egress.socketMap = socketMap

variable {socketMap : PriorityTable (Option (List Egress.Socket))}

theorem step_relaying {history next : State stage × Past (State stage) (Action stage)}
    {action : Action stage} (relaying : Relaying socketMap history)
    (stepped : recorded (step stage) history action = some next) : Relaying socketMap next where
  booked := step_booked relaying.booked stepped
  dealt := by
    refine @step_behind _ _ _ (fun collector attempted => ∃ handled, collector.egress.Dealt attempted handled)
      MetricsCollector.State.attempts_signal ?_ _ _ _ relaying.dealt stepped
    intro collector attempted action after dealt moved
    refine @MetricsCollector.State.moves_attempts
      (fun egress attempted => ∃ handled, egress.Dealt attempted handled) Egress.State.step_dealt ?_ _ _ _ _
      dealt moved
    rintro egress attempted events ⟨handled, dealt⟩
    exact ⟨handled, dealt.quiet rfl rfl dealt.received⟩
  sending := by
    refine @step_behind _ _ _ (fun collector => collector.egress.Sending)
      MetricsCollector.State.attempts_signal ?_ _ _ _ relaying.sending stepped
    intro collector attempted action after sending moved
    exact @MetricsCollector.State.moves_attempts Egress.State.Sending Egress.State.step_sending
      (fun events sending => sending) _ _ _ _ sending moved
  sockets := by
    have kept := @step_behind stage _ _
      (fun collector (_ : List (Egress.Socket × Packet)) => collector.egress.socketMap = socketMap)
      MetricsCollector.State.attempts_signal ?_ _ _ _ relaying.sockets stepped
    · exact kept
    intro collector attempted action after same moved
    refine @MetricsCollector.State.moves_attempts (fun egress _ => egress.socketMap = socketMap) ?_
      (fun events same => same) _ _ attempted _ same moved
    intro egress attempted action after same stepped
    exact (Egress.State.step_socketMap stepped).trans same

theorem start_relaying (registrations : List Registration)
    (socketMap : PriorityTable (Option (List Egress.Socket))) :
    Relaying socketMap (start stage registrations socketMap, []) where
  booked := start_booked registrations socketMap
  dealt := ⟨[], rfl, rfl, fun _ _ => (Nat.zero_mod _).symm⟩
  sending := ⟨[], rfl, .refl _⟩
  sockets := rfl

theorem Relaying.relayed {history : State stage × Past (State stage) (Action stage)}
    (distinct : Distinct socketMap) (relaying : Relaying socketMap history) :
    Relayed socketMap history := by
  obtain ⟨handled, dealt⟩ := relaying.dealt
  obtain ⟨finished, split, sent⟩ := relaying.sending
  have sockets : history.1.egress.sockets = socketsOf socketMap := by
    funext priority
    rw [Egress.State.sockets, relaying.sockets, socketsOf]
  have attempted := sockets ▸ dealt.dealt
  have prefix_ : handled <+: history.1.egress.dequeued := dealt.received ▸ List.prefix_append _ _
  have order : ((observed attemptOf history.2).map Prod.snd).Sublist
      (history.1.egress.dequeued.map Prod.snd) := by
    rw [attempted]
    exact (RoundRobin.deal_sublist _ handled).trans (prefix_.sublist.map _)
  have within := received_le_read relaying.booked
  refine ⟨⟨handled, prefix_, ?_, attempted⟩, ?_, ?_, ?_, ?_⟩
  · rw [dealt.received, List.length_append]
    exact Nat.add_le_add_left Option.length_toList_le _
  · intro priority first listed second listed'
    rw [attempted]
    exact RoundRobin.deal_balanced (distinct.within priority) (distinct.across priority) listed listed' handled
  · have read := nodup_of_numbers relaying.booked.numbers
    have received : (history.1.egress.dequeued.map Prod.snd).Nodup :=
      Multiset.coe_nodup.mp (Multiset.nodup_of_le within (Multiset.coe_nodup.mpr read))
    exact received.sublist order
  · rw [split]
    exact sent.trans (List.sublist_append_left _ _)
  · intro entry listed
    have received := order.mem (List.mem_map_of_mem (f := Prod.snd) listed)
    have read := Multiset.mem_coe.mp (Multiset.mem_of_le within (Multiset.mem_coe.mpr received))
    obtain ⟨datagram, found, holds⟩ := relaying.booked.datagram read
    exact ⟨datagram, found, holds.payload⟩

theorem outputSocketMap_distinct : Distinct outputSocketMap where
  within := by decide
  across := by decide

end Pipeline

open Pipeline in
/-- Whatever the scheduler and the order of steps: of the packets the egress receives each
is attempted once, in order, on the socket of its class whose turn it is, so that the
sockets of a class get the same number, give or take one; and what is sent is a
different datagram each time, up to the size of a packet. -/
theorem PipelineConfig.relays_datagrams (config : PipelineConfig)
    (actions : List (Pipeline.Action config.stage)) :
    Throughout (recorded (Pipeline.step config.stage)) (Relayed outputSocketMap) (config.start, [])
      actions :=
  throughout_invariant step_relaying (Relaying.relayed outputSocketMap_distinct)
    (start_relaying config.registrations outputSocketMap) actions

end EdfPipeline
