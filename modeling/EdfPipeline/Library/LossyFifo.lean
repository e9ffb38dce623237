import EdfPipeline.Library.TransitionSystem
import Mathlib.Data.Fintype.Card
import Mathlib.Data.List.Induction

/-!
# Queues that may lose items

Items are offered to the queue of their class. A queue may refuse an item or lose
one it holds, and counts both; what it does not lose it delivers in order.
-/

set_option autoImplicit false

namespace LossyFifo

open TransitionSystem

variable {Class Item : Type}

structure State (Class Item : Type) where
  queues : Class → List Item
  lost : Class → Nat

inductive Action (Class Item : Type) where
  | put (class_ : Class) (item : Item)
  | refuse (class_ : Class) (item : Item)
  | lose (class_ : Class) (index : Nat)
  | take (class_ : Class) (item : Item)

/-- What is seen from outside. -/
inductive Event (Class Item : Type) where
  | offered (class_ : Class) (item : Item)
  | delivered (class_ : Class) (item : Item)
  deriving DecidableEq

def initial : State Class Item where
  queues _ := []
  lost _ := 0

def shown : Action Class Item → Option (Event Class Item)
  | .put class_ item | .refuse class_ item => some (.offered class_ item)
  | .lose _ _ => none
  | .take class_ item => some (.delivered class_ item)

variable [DecidableEq Class]

def Event.offeredTo (class_ : Class) : Event Class Item → Option Item
  | .offered other item => if other = class_ then some item else none
  | .delivered _ _ => none

def Event.deliveredFrom (class_ : Class) : Event Class Item → Option Item
  | .offered _ _ => none
  | .delivered other item => if other = class_ then some item else none

section Step

variable [DecidableEq Item]

def step (state : State Class Item) : Action Class Item → Option (State Class Item)
  | .put class_ item =>
      some { state with queues := Function.update state.queues class_ (state.queues class_ ++ [item]) }
  | .refuse class_ _ =>
      some { state with lost := Function.update state.lost class_ (state.lost class_ + 1) }
  | .lose class_ index =>
      if index < (state.queues class_).length then
        some
          { queues := Function.update state.queues class_ ((state.queues class_).eraseIdx index)
            lost := Function.update state.lost class_ (state.lost class_ + 1) }
      else none
  | .take class_ item =>
      match state.queues class_ with
      | [] => none
      | head :: rest =>
          if head = item then some { state with queues := Function.update state.queues class_ rest }
          else none

/-! ## What every run keeps -/

/-- What was delivered from a queue, followed by what it holds, is what it was offered but
for what was lost. -/
structure Accounts (state : State Class Item) (events : List (Event Class Item)) : Prop where
  ordered : ∀ class_, (events.filterMap (Event.deliveredFrom class_) ++ state.queues class_).Sublist
    (events.filterMap (Event.offeredTo class_))
  counted : ∀ class_, (events.filterMap (Event.offeredTo class_)).length =
    (events.filterMap (Event.deliveredFrom class_)).length + (state.queues class_).length +
      state.lost class_

/-- What a step does to the queue of a class. -/
structure Balances (state : State Class Item) (action : Action Class Item) (next : State Class Item)
    (class_ : Class) : Prop where
  ordered : (((shown action).bind (Event.deliveredFrom class_)).toList ++ next.queues class_).Sublist
    (state.queues class_ ++ ((shown action).bind (Event.offeredTo class_)).toList)
  counted : (state.queues class_).length + state.lost class_ +
      ((shown action).bind (Event.offeredTo class_)).toList.length =
    ((shown action).bind (Event.deliveredFrom class_)).toList.length + (next.queues class_).length +
      next.lost class_

theorem step_balances {state next : State Class Item} {action : Action Class Item}
    (stepped : step state action = some next) (class_ : Class) : Balances state action next class_ := by
  have apart (silent : (shown action).bind (Event.offeredTo class_) = none)
      (silent' : (shown action).bind (Event.deliveredFrom class_) = none)
      (queue : next.queues class_ = state.queues class_) (lost : next.lost class_ = state.lost class_) :
      Balances state action next class_ := by
    constructor
    · simp [silent, silent', queue]
    · simp [silent, silent', queue, lost]
  cases action with
  | put other item =>
      cases stepped
      by_cases same : other = class_
      · subst same
        constructor <;> simp [shown, Event.offeredTo, Event.deliveredFrom, Nat.add_right_comm]
      · exact apart (by simp [shown, Event.offeredTo, same]) rfl
          (Function.update_of_ne (Ne.symm same) ..) rfl
  | refuse other item =>
      cases stepped
      by_cases same : other = class_
      · subst same
        constructor <;> simp [shown, Event.offeredTo, Event.deliveredFrom, Nat.add_assoc]
      · exact apart (by simp [shown, Event.offeredTo, same]) rfl rfl
          (Function.update_of_ne (Ne.symm same) ..)
  | lose other index =>
      simp only [step] at stepped
      split at stepped
      · rename_i within
        cases stepped
        by_cases same : other = class_
        · subst same
          constructor
          · simp [shown, List.eraseIdx_sublist]
          · simp only [shown, Option.bind_none, Option.toList_none, List.length_nil,
              Function.update_self, List.length_eraseIdx_of_lt within]
            omega
        · exact apart rfl rfl (Function.update_of_ne (Ne.symm same) ..)
            (Function.update_of_ne (Ne.symm same) ..)
      · cases stepped
  | take other item =>
      simp only [step] at stepped
      split at stepped
      · cases stepped
      · rename_i head rest holds
        split at stepped
        · rename_i first
          cases stepped
          subst first
          by_cases same : other = class_
          · subst same
            constructor
            · simp [shown, Event.offeredTo, Event.deliveredFrom, holds]
            · simp only [shown, Event.offeredTo, Event.deliveredFrom, holds, Option.bind_some, if_true,
                Option.toList_none, Option.toList_some, List.length_nil, List.length_cons,
                Function.update_self]
              omega
          · exact apart rfl (by simp [shown, Event.deliveredFrom, same])
              (Function.update_of_ne (Ne.symm same) ..) rfl
        · cases stepped

theorem step_accounts {state next : State Class Item} {events : List (Event Class Item)}
    {action : Action Class Item} (accounts : Accounts state events)
    (stepped : step state action = some next) : Accounts next (events ++ (shown action).toList) := by
  have split {β : Type} (keep : Event Class Item → Option β) :
      (events ++ (shown action).toList).filterMap keep =
        events.filterMap keep ++ ((shown action).bind keep).toList := by
    rw [List.filterMap_append]
    cases shown action with
    | none => rfl
    | some event => cases kept : keep event <;> simp [kept]
  constructor
  · intro class_
    have balances := step_balances stepped class_
    rw [split, split, List.append_assoc]
    refine ((List.Sublist.refl _).append balances.ordered).trans ?_
    rw [← List.append_assoc]
    exact (accounts.ordered class_).append (.refl _)
  · intro class_
    have balanced := (step_balances stepped class_).counted
    have before := accounts.counted class_
    rw [split, split, List.length_append, List.length_append]
    omega

theorem run_accounts {state : State Class Item} {actions : List (Action Class Item)}
    (ran : run step initial actions = some state) : Accounts state (actions.filterMap shown) := by
  induction actions using List.reverseRecOn generalizing state with
  | nil =>
      cases ran
      exact ⟨fun _ => .refl _, fun _ => rfl⟩
  | append_singleton actions action ih =>
      obtain ⟨middle, earlier, last⟩ := Option.bind_eq_some_iff.mp (run_append .. ▸ ran)
      obtain ⟨next, stepped, done⟩ := run_cons_eq_some.mp last
      cases done
      rw [List.filterMap_append]
      have kept := step_accounts (ih earlier) stepped
      cases seen : shown action <;> simpa [seen] using kept

/-! ## Runs -/

/-- An item is taken into its queue or refused. -/
theorem offer_step (state : State Class Item) (class_ : Class) {item : Item} {new : List Item}
    (part : new.Sublist [item]) :
    ∃ action lost, shown action = some (.offered class_ item) ∧ step state action =
      some { queues := Function.update state.queues class_ (state.queues class_ ++ new), lost } := by
  rcases List.sublist_singleton.mp part with rfl | rfl
  · refine ⟨.refuse class_ item, Function.update state.lost class_ (state.lost class_ + 1), rfl, ?_⟩
    rw [List.append_nil, Function.update_eq_self]
    rfl
  · exact ⟨.put class_ item, _, rfl, rfl⟩

theorem take_step {state : State Class Item} {class_ : Class} {item : Item} {rest : List Item}
    (waits : state.queues class_ = item :: rest) :
    step state (.take class_ item) =
      some { state with queues := Function.update state.queues class_ rest } := by
  simp only [step, waits, if_true]

/-- A queue loses items one by one. -/
theorem lose_class {class_ : Class} {long short : List Item} (kept : short.Sublist long) :
    ∀ {state : State Class Item} {front : List Item}, state.queues class_ = front ++ long →
      ∃ actions lost, run step state actions =
          some { queues := Function.update state.queues class_ (front ++ short), lost } ∧
        actions.filterMap shown = [] := by
  induction kept with
  | slnil =>
      intro state front holds
      refine ⟨[], state.lost, ?_, rfl⟩
      rw [← holds, Function.update_eq_self]
      rfl
  | @cons short long item kept ih =>
      intro state front holds
      have within : front.length < (state.queues class_).length := by
        rw [holds, List.length_append]
        exact Nat.lt_add_of_pos_right (Nat.succ_pos _)
      have erased : (state.queues class_).eraseIdx front.length = front ++ long := by
        rw [holds, List.eraseIdx_append_of_length_le (Nat.le_refl _), Nat.sub_self]
        rfl
      obtain ⟨actions, lost, ran, silent⟩ := @ih
        { queues := Function.update state.queues class_ (front ++ long)
          lost := Function.update state.lost class_ (state.lost class_ + 1) }
        front (Function.update_self ..)
      refine ⟨.lose class_ front.length :: actions, lost, ?_, silent⟩
      rw [run_cons, step, if_pos within, erased, Option.bind_some, ran, Function.update_idem]
  | @cons_cons short long item kept ih =>
      intro state front holds
      obtain ⟨actions, lost, ran, silent⟩ := @ih state (front ++ [item]) (by simpa using holds)
      refine ⟨actions, lost, ?_, silent⟩
      rw [ran, List.append_assoc, List.singleton_append]

/-- A queue may lose all but any part of it. -/
theorem lose_run [Fintype Class] {before after : Class → List Item} (lost : Class → Nat)
    (kept : ∀ class_, (after class_).Sublist (before class_)) :
    ∃ actions lost', run step { queues := before, lost } actions =
      some { queues := after, lost := lost' } ∧ actions.filterMap shown = [] := by
  have some_ (classes : List Class) : ∃ actions lost', run step { queues := before, lost } actions =
        some { queues := fun class_ => if class_ ∈ classes then after class_ else before class_
               lost := lost' } ∧ actions.filterMap shown = [] := by
    induction classes with
    | nil => exact ⟨[], lost, rfl, rfl⟩
    | cons class_ classes ih =>
        obtain ⟨earlier, lost, ran, silent⟩ := ih
        have part : (after class_).Sublist
            (if class_ ∈ classes then after class_ else before class_) := by
          split
          · exact .refl _
          · exact kept class_
        obtain ⟨later, lost', ran', silent'⟩ := @lose_class Class Item _ _ class_ _ _ part
          { queues := fun other => if other ∈ classes then after other else before other, lost } [] rfl
        refine ⟨earlier ++ later, lost', ?_, ?_⟩
        · rw [run_append, ran, Option.bind_some, ran']
          congr 2
          funext other
          by_cases same : other = class_
          · subst same
            simp
          · simp [same]
        · rw [List.filterMap_append, silent, silent', List.append_nil]
  obtain ⟨actions, lost, ran, silent⟩ := some_ Finset.univ.toList
  refine ⟨actions, lost, ?_, silent⟩
  rw [ran]
  simp

end Step

end LossyFifo
