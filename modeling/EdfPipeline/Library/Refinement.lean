import EdfPipeline.Library.TransitionSystem

/-!
# Refinement

A system refines another one if each of its steps is matched by a run of the
other that shows the same. Its runs then show what runs of the other show.
-/

set_option autoImplicit false

namespace TransitionSystem

variable {State Action Abstract AbstractAction Event : Type}

/-- Related after any past. -/
structure Refinement (step : State → Action → Option State)
    (abstract : Abstract → AbstractAction → Option Abstract) (seen : State → Action → Option Event)
    (shown : AbstractAction → Option Event) where
  relation : State × Past State Action → Abstract → Prop
  matched : ∀ {history next : State × Past State Action} {action : Action} {before : Abstract},
    relation history before → recorded step history action = some next →
    ∃ actions after, run abstract before actions = some after ∧
      actions.filterMap shown = (seen history.1 action).toList ∧ relation next after

/-- A run of the abstract system that shows what was seen. -/
def Shows (abstract : Abstract → AbstractAction → Option Abstract) (shown : AbstractAction → Option Event)
    (start : Abstract) (events : List Event) (reached : Abstract) : Prop :=
  ∃ actions, run abstract start actions = some reached ∧ actions.filterMap shown = events

theorem Shows.append {abstract : Abstract → AbstractAction → Option Abstract}
    {shown : AbstractAction → Option Event} {start middle reached : Abstract} {earlier later : List Event}
    (first : Shows abstract shown start earlier middle) (second : Shows abstract shown middle later reached) :
    Shows abstract shown start (earlier ++ later) reached := by
  obtain ⟨actions, ran, rfl⟩ := first
  obtain ⟨more, ran', rfl⟩ := second
  refine ⟨actions ++ more, ?_, List.filterMap_append⟩
  rw [run_append, ran]
  exact ran'

variable {step : State → Action → Option State} {abstract : Abstract → AbstractAction → Option Abstract}
  {seen : State → Action → Option Event} {shown : AbstractAction → Option Event}

/-- What was seen of a run so far, some run of the abstract system shows. -/
def Refinement.Shown (refinement : Refinement step abstract seen shown) (start : Abstract)
    (history : State × Past State Action) : Prop :=
  ∃ reached, Shows abstract shown start (observed seen history.2) reached ∧
    refinement.relation history reached

theorem Refinement.throughout (refinement : Refinement step abstract seen shown) {start : Abstract}
    {property : State × Past State Action → Prop}
    (implies : ∀ {history}, refinement.Shown start history → property history) {state : State}
    (related : refinement.relation (state, []) start) (actions : List Action) :
    Throughout (recorded step) property (state, []) actions := by
  have preserved {history next : State × Past State Action} {action : Action}
      (shown : refinement.Shown start history) (stepped : recorded step history action = some next) :
      refinement.Shown start next := by
    obtain ⟨reached, shows, relates⟩ := shown
    obtain ⟨actions, after, ran, same, relates'⟩ := refinement.matched relates stepped
    refine ⟨after, ?_, relates'⟩
    rw [(recorded_eq_some.mp stepped).2, observed_append, ← same]
    exact shows.append ⟨actions, ran, rfl⟩
  exact throughout_invariant preserved implies ⟨start, ⟨[], rfl, rfl⟩, related⟩ actions

end TransitionSystem
