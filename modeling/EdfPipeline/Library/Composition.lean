import EdfPipeline.Library.TransitionSystem

/-!
# Systems in a row

A step of the first system comes with messages, and the second takes a step for
each of them in the same instant. Between the messages the second takes its own
steps. Every run of the two is a run of each, so what holds of each alone holds
of it here.
-/

set_option autoImplicit false

namespace TransitionSystem

structure Link (Sender SenderAction Receiver ReceiverAction : Type) where
  upstream : Sender → SenderAction → Option Sender
  downstream : Receiver → ReceiverAction → Option Receiver
  /-- What a step of the first system, from one state to another, tells the second. -/
  messages : Sender → SenderAction → Sender → List ReceiverAction
  /-- The steps the second system takes by itself. -/
  own : ReceiverAction → Bool

namespace Link

variable {Sender SenderAction Receiver ReceiverAction : Type}

def step (link : Link Sender SenderAction Receiver ReceiverAction) :
    Sender × Receiver → SenderAction ⊕ ReceiverAction → Option (Sender × Receiver)
  | (sender, receiver), .inl action =>
      (link.upstream sender action).bind fun next =>
        (run link.downstream receiver (link.messages sender action next)).map fun reached =>
          (next, reached)
  | (sender, receiver), .inr action =>
      if link.own action then (link.downstream receiver action).map fun reached => (sender, reached)
      else none

inductive Moves (link : Link Sender SenderAction Receiver ReceiverAction)
    (state : Sender × Receiver) : SenderAction ⊕ ReceiverAction → Sender × Receiver → Prop where
  | send {action : SenderAction} {next : Sender} {reached : Receiver}
      (sent : link.upstream state.1 action = some next)
      (received : run link.downstream state.2 (link.messages state.1 action next) = some reached) :
      Moves link state (.inl action) (next, reached)
  | alone {action : ReceiverAction} {reached : Receiver} (own : link.own action = true)
      (moved : link.downstream state.2 action = some reached) :
      Moves link state (.inr action) (state.1, reached)

variable {link : Link Sender SenderAction Receiver ReceiverAction}

theorem step_moves {state next : Sender × Receiver} {action : SenderAction ⊕ ReceiverAction}
    (stepped : link.step state action = some next) : Moves link state action next := by
  cases action with
  | inl action =>
      obtain ⟨sender, sent, mapped⟩ := Option.bind_eq_some_iff.mp stepped
      obtain ⟨reached, received, rfl⟩ := Option.map_eq_some_iff.mp mapped
      exact .send sent received
  | inr action =>
      simp only [step] at stepped
      split at stepped
      · rename_i own
        obtain ⟨reached, moved, rfl⟩ := Option.map_eq_some_iff.mp stepped
        exact .alone own moved
      · cases stepped

theorem alone_enabled {state : Sender × Receiver} {action : ReceiverAction} {reached : Receiver}
    (own : link.own action = true) (moved : link.downstream state.2 action = some reached) :
    link.step state (.inr action) = some (state.1, reached) := by
  simp only [step, own, if_true, moved, Option.map_some]

/-- A step of the second system leaves the first as it is. -/
theorem upstream_kept {invariant : Sender → Prop}
    (preserved : ∀ {sender action next}, invariant sender →
      link.upstream sender action = some next → invariant next)
    {state next : Sender × Receiver} {action : SenderAction ⊕ ReceiverAction}
    (holds : invariant state.1) (stepped : link.step state action = some next) :
    invariant next.1 := by
  cases step_moves stepped with
  | send sent received => exact preserved holds sent
  | alone own moved => exact holds

/-- Whatever the second system is told, it takes its own kind of steps. -/
theorem downstream_kept {invariant : Receiver → Prop}
    (preserved : ∀ {receiver action next}, invariant receiver →
      link.downstream receiver action = some next → invariant next)
    {state next : Sender × Receiver} {action : SenderAction ⊕ ReceiverAction}
    (holds : invariant state.2) (stepped : link.step state action = some next) :
    invariant next.2 := by
  cases step_moves stepped with
  | send sent received => exact run_invariant preserved holds received
  | alone own moved => exact preserved holds moved

/-- If the second system refuses none of the messages, the first one is never held up. -/
theorem send_enabled {invariant : Receiver → Prop}
    (preserved : ∀ {receiver action next}, invariant receiver →
      link.downstream receiver action = some next → invariant next)
    {state : Sender × Receiver} {action : SenderAction} {next : Sender}
    (accepts : ∀ message ∈ link.messages state.1 action next, ∀ receiver, invariant receiver →
      ∃ reached, link.downstream receiver message = some reached)
    (holds : invariant state.2) (sent : link.upstream state.1 action = some next) :
    ∃ reached, link.step state (.inl action) = some (next, reached) := by
  have received : ∀ messages receiver, invariant receiver →
      (∀ message ∈ messages, ∀ receiver, invariant receiver →
        ∃ reached, link.downstream receiver message = some reached) →
      ∃ reached, run link.downstream receiver messages = some reached := by
    intro messages
    induction messages with
    | nil =>
        intro receiver _ _
        exact ⟨receiver, rfl⟩
    | cons message rest ih =>
        intro receiver holds accepts
        obtain ⟨middle, moved⟩ := accepts message List.mem_cons_self receiver holds
        obtain ⟨reached, ran⟩ := ih middle (preserved holds moved)
          fun other listed => accepts other (List.mem_cons_of_mem _ listed)
        exact ⟨reached, run_cons_eq_some.mpr ⟨middle, moved, ran⟩⟩
  obtain ⟨reached, ran⟩ := received _ state.2 holds accepts
  refine ⟨reached, ?_⟩
  simp only [step, sent, Option.bind_some, ran, Option.map_some]

/-! ## Messages on both sides -/

section Agreement

variable {Noted : Type} {note : Noted → ReceiverAction → Noted} {received : Receiver → Noted}
  {invariant : Receiver → Prop}

/-- What the second system has noted after a run, each step noting what it is told. -/
theorem noted_run {downstream : Receiver → ReceiverAction → Option Receiver}
    (preserved : ∀ {receiver action next}, invariant receiver →
      downstream receiver action = some next → invariant next)
    {messages : List ReceiverAction}
    (receives : ∀ {receiver action next}, action ∈ messages → invariant receiver →
      downstream receiver action = some next → received next = note (received receiver) action)
    {receiver reached : Receiver} (holds : invariant receiver)
    (ran : run downstream receiver messages = some reached) :
    received reached = messages.foldl note (received receiver) := by
  induction messages generalizing receiver with
  | nil =>
      cases ran
      rfl
  | cons message rest ih =>
      obtain ⟨next, moved, continued⟩ := run_cons_eq_some.mp ran
      rw [List.foldl_cons, ← receives List.mem_cons_self holds moved]
      exact ih (fun listed => receives (List.mem_cons_of_mem _ listed)) (preserved holds moved)
        continued

/-- If the first system notes its messages as the second one does, and steps of its
own are nothing to note, the two never disagree. -/
theorem agreed_kept {sent : Sender → Noted}
    (preserved : ∀ {receiver action next}, invariant receiver →
      link.downstream receiver action = some next → invariant next)
    (receives : ∀ {receiver action next}, invariant receiver →
      link.downstream receiver action = some next → received next = note (received receiver) action)
    (silent : ∀ action, link.own action = true → ∀ noted, note noted action = noted)
    {state next : Sender × Receiver} {action : SenderAction ⊕ ReceiverAction}
    (sends : ∀ first reached, action = .inl first → link.upstream state.1 first = some reached →
      sent reached = (link.messages state.1 first reached).foldl note (sent state.1))
    (holds : invariant state.2) (agreed : sent state.1 = received state.2)
    (stepped : link.step state action = some next) : sent next.1 = received next.2 := by
  cases step_moves stepped with
  | send sentStep receivedRun =>
      rw [sends _ _ rfl sentStep, agreed]
      exact (noted_run preserved (fun _ => receives) holds receivedRun).symm
  | alone own moved =>
      rw [receives holds moved, silent _ own]
      exact agreed

end Agreement

end Link

end TransitionSystem
