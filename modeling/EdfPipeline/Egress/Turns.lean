import EdfPipeline.Library.RoundRobin
import EdfPipeline.Metrics.Tally

/-!
# The sockets of the egress

Packets received are dealt to the sockets of their class in turn. Each is
attempted on the socket whose turn it is, and sent there or given up.
-/

set_option autoImplicit false

namespace EdfPipeline.Egress

open RoundRobin (deal turn)

def Pc.sending : Pc → Option (Socket × Packet)
  | .send _ packet socket => some (socket, packet)
  | .top | .poll _ | .measure _ _ _ | .judge _ _ _ _ | .record _ _ _ | .returned => none

namespace State

def sockets (state : State) (priority : Priority) : List Socket := (state.socketMap priority).getD []

/-- The attempt to send that a step begins. -/
def attempts (state : State) : Action → Option (Socket × Packet)
  | .run =>
      match state.pc with
      | .record rest packet event =>
          if state.events.length < eventCapacity then (state.recordPacket rest packet event).pc.sending
          else none
      | _ => none
  | _ => none

theorem attempts_none {state : State} {action : Action} (elsewhere : ∀ rest packet event,
    state.pc ≠ .record rest packet event) : state.attempts action = none := by
  unfold attempts
  split
  · split
    · rename_i place
      exact absurd place (elsewhere _ _ _)
    · rfl
  · rfl

/-- What was received but for the packet in progress was dealt, and attempted where it
was dealt to; the indices are those of the next turns. -/
structure Dealt (state : State) (attempted : List (Socket × Packet)) (handled : List (Priority × Packet)) :
    Prop where
  received : state.dequeued = handled ++ state.pc.inProgress.toList
  dealt : attempted = deal state.sockets handled
  indices : ∀ priority, state.sockets priority ≠ [] → state.socketIndices priority =
    RoundRobin.ofClass priority handled % (state.sockets priority).length

/-- What was sent was attempted, in this order, and what is attempted now is the last. -/
def Sending (state : State) (attempted : List (Socket × Packet)) : Prop :=
  ∃ finished, attempted = finished ++ state.pc.sending.toList ∧ state.transmitted.Sublist finished

/-- The choice of a socket. -/
theorem recordPacket_turn (state : State) (rest : List Priority) (packet : Packet)
    (event : MetricsEvent) :
    (state.recordPacket rest packet event).socketMap = state.socketMap ∧
      (state.recordPacket rest packet event).transmitted = state.transmitted ∧
      (state.recordPacket rest packet event).pc.inProgress = none ∧
      (state.recordPacket rest packet event).pc.sending =
        (turn (state.sockets event.priority) (state.socketIndices event.priority)).map
          (fun socket => (socket, packet)) ∧
      (state.recordPacket rest packet event).socketIndices =
        if state.sockets event.priority = [] then state.socketIndices
        else state.socketIndices.set event.priority
          ((state.socketIndices event.priority + 1) % (state.sockets event.priority).length) := by
  unfold recordPacket
  cases found : state.socketMap event.priority with
  | none => simp [found, sockets, Pc.inProgress, Pc.sending, turn]
  | some listed =>
      cases listed with
      | nil => simp [found, sockets, Pc.inProgress, Pc.sending, turn]
      | cons first others =>
          have within := Nat.mod_lt (state.socketIndices event.priority) (Nat.succ_pos others.length)
          simp [found, sockets, Pc.inProgress, Pc.sending, turn, within]

theorem Dealt.quiet {state next : State} {attempted : List (Socket × Packet)}
    {handled : List (Priority × Packet)} (dealt : state.Dealt attempted handled)
    (socketMap : next.socketMap = state.socketMap) (indices : next.socketIndices = state.socketIndices)
    (received : next.dequeued = handled ++ next.pc.inProgress.toList) : next.Dealt attempted handled := by
  have same : next.sockets = state.sockets := by
    funext priority
    rw [sockets, socketMap, sockets]
  exact ⟨received, same ▸ dealt.dealt, by rw [same, indices]; exact dealt.indices⟩

/-- The packet that is recorded is dealt to the socket whose turn it is. -/
theorem Dealt.record {state : State} {attempted : List (Socket × Packet)}
    {handled : List (Priority × Packet)} (dealt : state.Dealt attempted handled) {rest : List Priority}
    {packet : Packet} {event : MetricsEvent} (place : state.pc = .record rest packet event) :
    (state.recordPacket rest packet event).Dealt
      (attempted ++ (state.recordPacket rest packet event).pc.sending.toList)
      (handled ++ [(event.priority, packet)]) := by
  obtain ⟨socketMap, _, done, chosen, indices⟩ := recordPacket_turn state rest packet event
  obtain ⟨_, _, _, dequeued, _⟩ := recordPacket_frame state rest packet event
  have same : (state.recordPacket rest packet event).sockets = state.sockets := by
    funext priority
    rw [sockets, socketMap, sockets]
  refine ⟨?_, ?_, ?_⟩
  · have received := dealt.received
    rw [place] at received
    rw [dequeued, received, done, Option.toList_none, List.append_nil]
    rfl
  · rw [same, RoundRobin.deal_concat, ← dealt.dealt, chosen, RoundRobin.seat]
    by_cases none : state.sockets event.priority = []
    · simp [none, turn]
    · rw [dealt.indices event.priority none, RoundRobin.turn_mod]
  · intro priority some_
    rw [same] at some_ ⊢
    rw [indices, RoundRobin.ofClass_concat]
    by_cases own : event.priority = priority
    · subst own
      rw [if_neg some_, PriorityTable.set_self, dealt.indices _ some_, if_pos rfl, Nat.mod_add_mod]
    · rw [if_neg own, Nat.add_zero]
      split
      · exact dealt.indices priority some_
      · rw [PriorityTable.set_other (Ne.symm own)]
        exact dealt.indices priority some_

theorem step_dealt {state next : State} {attempted : List (Socket × Packet)} {action : Action}
    (dealt : ∃ handled, state.Dealt attempted handled) (stepped : state.step action = some next) :
    ∃ handled, next.Dealt (attempted ++ (state.attempts action).toList) handled := by
  obtain ⟨handled, dealt⟩ := dealt
  have quiet (silent : state.attempts action = none) (socketMap : next.socketMap = state.socketMap)
      (indices : next.socketIndices = state.socketIndices)
      (received : next.dequeued = handled ++ next.pc.inProgress.toList) :
      ∃ handled, next.Dealt (attempted ++ (state.attempts action).toList) handled := by
    rw [silent, Option.toList_none, List.append_nil]
    exact ⟨handled, dealt.quiet socketMap indices received⟩
  have received := dealt.received
  cases step_moves stepped with
  | @record rest packet event place room =>
      have attempts : state.attempts .run = (state.recordPacket rest packet event).pc.sending := by
        simp only [State.attempts, place, if_pos room]
      rw [attempts]
      exact ⟨_, dealt.record place⟩
  | receive place taken =>
      refine quiet (attempts_none (by simp [place])) rfl rfl ?_
      rw [place] at received
      rw [receive, received]
      simp [Pc.inProgress]
  | arrive | disconnect | tick | stop | takeEvent | wouldBlock => exact quiet rfl rfl rfl received
  | sent place | failed place =>
      rw [place] at received
      exact quiet rfl rfl rfl received
  | enter place | quit place | leave place | skip place | close place | measure place | judge place =>
      rw [place] at received
      exact quiet (attempts_none (by simp [place])) rfl rfl received

theorem step_sending {state next : State} {attempted : List (Socket × Packet)} {action : Action}
    (sending : state.Sending attempted) (stepped : state.step action = some next) :
    next.Sending (attempted ++ (state.attempts action).toList) := by
  obtain ⟨finished, split, sent⟩ := sending
  have quiet (silent : state.attempts action = none) (transmitted : next.transmitted = state.transmitted)
      (same : next.pc.sending = state.pc.sending) :
      next.Sending (attempted ++ (state.attempts action).toList) := by
    rw [silent, Option.toList_none, List.append_nil]
    exact ⟨finished, same ▸ split, transmitted ▸ sent⟩
  cases step_moves stepped with
  | @record rest packet event place room =>
      obtain ⟨_, transmitted, _⟩ := recordPacket_turn state rest packet event
      have attempts : state.attempts .run = (state.recordPacket rest packet event).pc.sending := by
        simp only [State.attempts, place, if_pos room]
      refine ⟨attempted, by rw [attempts], ?_⟩
      rw [transmitted, split]
      exact sent.trans (List.sublist_append_left _ _)
  | @sent rest packet socket place =>
      have silent : state.attempts (.sendTo .sent) = none := rfl
      rw [silent, split, place]
      exact ⟨finished ++ [(socket, packet)], rfl, sent.append (.refl _)⟩
  | @failed rest packet socket place =>
      have silent : state.attempts (.sendTo .failed) = none := rfl
      rw [silent, split, place]
      exact ⟨finished ++ [(socket, packet)], rfl, sent.trans (List.sublist_append_left _ _)⟩
  | arrive | disconnect | tick | stop | takeEvent | wouldBlock => exact quiet rfl rfl rfl
  | receive place | enter place | quit place | leave place | skip place | close place | measure place
  | judge place =>
      exact quiet (attempts_none (by simp [place])) rfl (by rw [place]; rfl)

end State

end EdfPipeline.Egress
