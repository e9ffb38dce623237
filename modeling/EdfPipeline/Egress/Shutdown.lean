import EdfPipeline.Egress.Flow
import EdfPipeline.Pipeline.Halting

/-!
# The end of the egress

When `running` is cleared, the pass in progress is finished and `process_queues`
returns. Metrics-Processor goes on, so it makes room for every event and gives up
the lock again.
-/

set_option autoImplicit false

namespace EdfPipeline

open TransitionSystem

namespace Egress

/-- The steps until the return, when no pass is begun any more. -/
def Pc.rank : Pc → Nat
  | .returned => 0
  | .top => 1
  | .poll rest => 5 * rest.length + 2
  | .send rest _ _ => 5 * rest.length + 3
  | .record rest _ _ => 5 * rest.length + 4
  | .judge rest _ _ _ => 5 * rest.length + 5
  | .measure rest _ _ => 5 * rest.length + 6

def Action.continues : Action → Bool
  | .stop => false
  | .arrive _ _ | .disconnect _ | .tick _ | .takeEvent | .run | .sendTo _ => true

/-- An attempt to send is repeated while the socket would block. -/
def Action.advances : Action → Bool
  | .run => true
  | .sendTo outcome => outcome ≠ .wouldBlock
  | .arrive _ _ | .disconnect _ | .tick _ | .stop | .takeEvent => false

namespace State

variable {state next : State}

theorem step_running {action : Action} (stepped : state.step action = some next) :
    next.running = (state.running && action.continues) := by
  cases step_moves stepped with
  | stop => exact (Bool.and_false _).symm
  | record =>
      obtain ⟨_, running, _⟩ := recordPacket_frame state _ _ _
      exact running.trans (Bool.and_true _).symm
  | arrive | disconnect | tick | takeEvent | enter | quit | leave | receive | skip | close | measure
  | judge | sent | wouldBlock | failed => exact (Bool.and_true _).symm

theorem step_rank {action : Action} (stopped : state.running = false)
    (stepped : state.step action = some next) :
    next.pc.rank + action.advances.toNat ≤ state.pc.rank := by
  cases step_moves stepped with
  | arrive | disconnect | tick | stop | takeEvent | wouldBlock => exact Nat.le_refl _
  | enter place running =>
      rw [stopped] at running
      cases running
  | record place =>
      obtain ⟨_, _, _, _, reached⟩ := recordPacket_frame state _ _ _
      rw [place]
      rcases reached with polling | ⟨socket, sending⟩
      · rw [polling]
        exact Nat.le_succ _
      · rw [sending]
        exact Nat.le_refl _
  | close place =>
      rw [place]
      simp only [Pc.rank, Action.advances, Bool.toNat_true]
      omega
  | receive place | skip place =>
      simp only [place, receive, Pc.rank, Action.advances, Bool.toNat_true, List.length_cons]
      omega
  | quit place | leave place | measure place | judge place | sent place | failed place =>
      rw [place]
      exact Nat.le_refl _

/-- The thread goes on until it returns, if there is room for an event. -/
theorem progress (room : state.events.length < eventCapacity) (active : state.pc ≠ .returned) :
    (∃ next, state.step .run = some next) ∨ ∃ next, state.step (.sendTo .sent) = some next := by
  cases place : state.pc with
  | top =>
      refine .inl ?_
      simp only [step, runStep, place]
      split <;> exact ⟨_, rfl⟩
  | poll rest =>
      refine .inl ?_
      cases rest with
      | nil => simp [step, runStep, place]
      | cons priority rest =>
          simp only [step, runStep, place]
          split <;> exact ⟨_, rfl⟩
  | measure | judge =>
      refine .inl ?_
      simp [step, runStep, place]
  | record =>
      refine .inl ?_
      simp [step, runStep, place, room]
  | send =>
      refine .inr ?_
      simp [step, sendStep, place]
  | returned => exact absurd place active

end State

end Egress

/-! ## Metrics-Processor -/

namespace MetricsCollector

open Egress (MetricsEvent)

/-- Steps of Egress-DRR, but for attempts that are repeated. -/
def Work.advances : Work → Bool
  | .run => true
  | .sendTo outcome => outcome ≠ .wouldBlock
  | .processor | .publish => false

/-- The pipeline keeps a sender, so Metrics-Processor does not return. -/
structure State.Serving (state : State) : Prop where
  connected : state.disconnected = false
  processor : state.processor ≠ .returned

namespace State

variable {state next : State}

theorem processorStep_serving (serving : state.Serving) (stepped : state.processorStep = some next) :
    next.Serving := by
  unfold processorStep at stepped
  split at stepped
  · split at stepped
    · split at stepped
      · cases stepped
        exact ⟨serving.connected, serving.processor⟩
      · rw [if_neg (by rw [serving.connected]; exact Bool.false_ne_true)] at stepped
        split at stepped
        · cases stepped
          exact serving
        · cases stepped
          exact ⟨serving.connected, by simp⟩
    · cases stepped
      exact ⟨serving.connected, by simp⟩
  · cases stepped
    exact ⟨serving.connected, by simp⟩
  · cases stepped
    exact ⟨serving.connected, by simp⟩
  · cases stepped

theorem moves_serving {action : Signal ⊕ Work} (serving : state.Serving)
    (moved : moves state action = some next) : next.Serving := by
  cases moves_moved moved with
  | egress told stepped =>
      obtain ⟨_, egress, _, rfl⟩ := step_egress stepped
      exact ⟨serving.connected, serving.processor⟩
  | processor stepped => exact processorStep_serving serving stepped
  | publish published =>
      rw [publish_some published]
      exact ⟨serving.connected, serving.processor⟩

theorem egressAction_continues {action : Signal ⊕ Work} {inner : Egress.Action}
    (told : egressAction action = some inner) : inner.continues = continues action := by
  cases action with
  | inl signal => cases signal <;> cases told <;> rfl
  | inr work =>
      cases work with
      | run | sendTo =>
          cases told
          rfl
      | processor | publish => cases told

theorem egressAction_advances {action : Signal ⊕ Work} {inner : Egress.Action}
    (told : egressAction action = some inner) :
    inner.advances = action.elim (fun _ => false) Work.advances := by
  cases action with
  | inl signal => cases signal <;> cases told <;> rfl
  | inr work =>
      cases work with
      | run | sendTo =>
          cases told
          rfl
      | processor | publish => cases told

theorem moves_running {action : Signal ⊕ Work} (moved : moves state action = some next) :
    next.egress.running = (state.egress.running && continues action) := by
  cases moves_moved moved with
  | egress told stepped =>
      obtain ⟨_, egress, egressStepped, rfl⟩ := step_egress stepped
      rw [← egressAction_continues told]
      exact Egress.State.step_running egressStepped
  | processor stepped =>
      obtain ⟨events, unchanged, _⟩ := processorStep_takes stepped
      rw [unchanged]
      exact (Bool.and_true _).symm
  | publish published =>
      rw [publish_some published]
      exact (Bool.and_true _).symm

theorem moves_rank {action : Signal ⊕ Work} (stopped : state.egress.running = false)
    (moved : moves state action = some next) :
    next.egress.pc.rank + (action.elim (fun _ => false) Work.advances).toNat ≤ state.egress.pc.rank := by
  cases moves_moved moved with
  | egress told stepped =>
      obtain ⟨_, egress, egressStepped, rfl⟩ := step_egress stepped
      have ranked := Egress.State.step_rank stopped egressStepped
      rw [egressAction_advances told] at ranked
      exact ranked
  | processor stepped =>
      obtain ⟨events, unchanged, _⟩ := processorStep_takes stepped
      rw [unchanged]
      exact Nat.le_refl _
  | publish published =>
      rw [publish_some published]
      exact Nat.le_refl _

/-! ## Metrics-Processor goes on -/

/-- Steps of Metrics-Processor alone lead there. -/
def LeadsTo (state next : State) : Prop :=
  ∃ count, TransitionSystem.run moves state (List.replicate count (.inr .processor)) = some next

theorem LeadsTo.refl (state : State) : state.LeadsTo state := ⟨0, rfl⟩

theorem LeadsTo.head {middle : State} (stepped : state.processorStep = some middle)
    (later : middle.LeadsTo next) : state.LeadsTo next := by
  obtain ⟨count, ran⟩ := later
  exact ⟨count + 1, run_cons_eq_some.mpr ⟨middle, stepped, ran⟩⟩

theorem LeadsTo.trans {middle : State} (first : state.LeadsTo middle) (later : middle.LeadsTo next) :
    state.LeadsTo next := by
  obtain ⟨count, ran⟩ := first
  obtain ⟨more, continued⟩ := later
  refine ⟨count + more, ?_⟩
  rw [List.replicate_add, TransitionSystem.run_append, ran]
  exact continued

/-- The batch is brought in. -/
theorem finish_batch {rest : List MetricsEvent} (place : state.processor = .update rest) :
    ∃ metrics, state.LeadsTo { state with metrics, batch := [], processor := .collect } := by
  induction rest generalizing state with
  | nil =>
      refine ⟨state.metrics, .head ?_ (.refl _)⟩
      simp only [processorStep, place]
  | cons event rest ih =>
      have stepped : state.processorStep =
          some { state with metrics := state.record event, processor := .update rest } := by
        simp only [processorStep, place]
      obtain ⟨metrics, later⟩ := @ih { state with
        metrics := state.record event, processor := .update rest } rfl
      exact ⟨metrics, .head stepped later⟩

/-- The lock is given up. -/
theorem reach_collect (serving : state.Serving) :
    ∃ metrics batch, state.LeadsTo { state with metrics, batch, processor := .collect } := by
  cases place : state.processor with
  | collect =>
      refine ⟨state.metrics, state.batch, ?_⟩
      rw [← place]
      exact .refl state
  | update rest =>
      obtain ⟨metrics, later⟩ := finish_batch place
      exact ⟨metrics, [], later⟩
  | returned => exact absurd place serving.processor

/-- There is room for an event. -/
theorem reach_room {event : MetricsEvent} {events : List MetricsEvent} (serving : state.Serving)
    (waiting : state.egress.events = event :: events) :
    ∃ metrics batch, state.LeadsTo
      { state with egress := { state.egress with events }, metrics, batch, processor := .collect } := by
  have takes (metrics : PriorityTable (Option Metrics)) (batch : List MetricsEvent)
      (room : batch.length < batchSize) :
      LeadsTo { state with metrics, batch, processor := .collect }
        { state with
          egress := { state.egress with events }, metrics, batch := batch ++ [event],
          processor := .collect } := by
    refine .head ?_ (.refl _)
    simp only [processorStep, room, waiting, if_true]
  obtain ⟨metrics, batch, first⟩ := reach_collect serving
  by_cases room : batch.length < batchSize
  · exact ⟨metrics, batch ++ [event], first.trans (takes metrics batch room)⟩
  · have full : processorStep { state with metrics, batch, processor := .collect } =
        some { state with metrics, batch, processor := .update batch } := by
      simp only [processorStep, room, if_false]
    obtain ⟨metrics', later⟩ := @finish_batch
      { state with metrics, batch, processor := .update batch } batch rfl
    exact ⟨metrics', [event], first.trans ((later.head full).trans (takes metrics' [] (by decide)))⟩

/-- Egress-DRR goes on until it returns, if Metrics-Processor does. -/
theorem progress (serving : state.Serving) (active : state.egress.pc ≠ .returned)
    (bounded : state.egress.events.length ≤ Egress.eventCapacity) :
    ∃ middle work, state.LeadsTo middle ∧ Work.advances work = true ∧
      ∃ next, moves middle (.inr work) = some next := by
  have goes {middle : State} (room : middle.egress.events.length < Egress.eventCapacity)
      (active : middle.egress.pc ≠ .returned) :
      ∃ work, Work.advances work = true ∧ ∃ next, moves middle (.inr work) = some next := by
    rcases Egress.State.progress room active with ⟨egress, stepped⟩ | ⟨egress, stepped⟩
    · exact ⟨.run, rfl, _, congrArg (Option.map _) stepped⟩
    · exact ⟨.sendTo .sent, rfl, _, congrArg (Option.map _) stepped⟩
  cases waiting : state.egress.events with
  | nil =>
      obtain ⟨work, advances, enabled⟩ := @goes state (by rw [waiting]; decide) active
      exact ⟨state, work, .refl state, advances, enabled⟩
  | cons event events =>
      obtain ⟨metrics, batch, first⟩ := reach_room serving waiting
      rw [waiting] at bounded
      obtain ⟨work, advances, enabled⟩ := @goes { state with
        egress := { state.egress with events }, metrics, batch, processor := .collect } bounded active
      exact ⟨_, work, first, advances, enabled⟩

end State

end MetricsCollector

end EdfPipeline
