import Mathlib.Data.Option.Basic
import Mathlib.Logic.Basic
import Mathlib.Logic.Relation

/-!
# Runs of a partial step function

A system is given by a step function into `Option`: a disabled action has no
successor. Runs are finite lists of actions, so every reachable state is the
result of some run and every prefix of a run is a run.
-/

set_option autoImplicit false

namespace TransitionSystem

variable {State Action : Type}

def run (step : State → Action → Option State) : State → List Action → Option State
  | state, [] => some state
  | state, action :: rest => (step state action).bind fun next => run step next rest

/-- Every step of the run meets the guard in the state it is taken from. -/
def Along (step : State → Action → Option State) (guard : State → Action → Prop) :
    State → List Action → Prop
  | _, [] => True
  | state, action :: rest =>
      guard state action ∧ ∀ next ∈ step state action, Along step guard next rest

/-- Every state the run passes through, its first and last included, has the
property. -/
def Throughout (step : State → Action → Option State) (property : State → Prop) :
    State → List Action → Prop
  | state, [] => property state
  | state, action :: rest =>
      property state ∧ ∀ next ∈ step state action, Throughout step property next rest

instance decidableAlong (step : State → Action → Option State)
    (guard : State → Action → Prop) [∀ state action, Decidable (guard state action)] :
    ∀ state actions, Decidable (Along step guard state actions)
  | _, [] => inferInstanceAs (Decidable True)
  | state, action :: rest =>
      haveI : ∀ next, Decidable (Along step guard next rest) :=
        fun next => decidableAlong step guard next rest
      inferInstanceAs (Decidable
        (guard state action ∧ ∀ next ∈ step state action, Along step guard next rest))

instance decidableThroughout (step : State → Action → Option State) (property : State → Prop)
    [∀ state, Decidable (property state)] :
    ∀ state actions, Decidable (Throughout step property state actions)
  | state, [] => inferInstanceAs (Decidable (property state))
  | state, action :: rest =>
      haveI : ∀ next, Decidable (Throughout step property next rest) :=
        fun next => decidableThroughout step property next rest
      inferInstanceAs (Decidable
        (property state ∧ ∀ next ∈ step state action, Throughout step property next rest))

variable {step : State → Action → Option State}

@[simp] theorem run_nil (state : State) : run step state [] = some state := rfl

@[simp] theorem run_cons (state : State) (action : Action) (rest : List Action) :
    run step state (action :: rest) = (step state action).bind fun next => run step next rest :=
  rfl

theorem run_cons_eq_some {state final : State} {action : Action} {rest : List Action} :
    run step state (action :: rest) = some final ↔
      ∃ next, step state action = some next ∧ run step next rest = some final := by
  rw [run_cons, Option.bind_eq_some_iff]

theorem run_append (state : State) (earlier later : List Action) :
    run step state (earlier ++ later) =
      (run step state earlier).bind fun middle => run step middle later := by
  induction earlier generalizing state with
  | nil => rfl
  | cons action rest ih =>
      simp only [List.cons_append, run_cons, Option.bind_assoc]
      congr 1
      funext next
      exact ih next

theorem along_of_forall {allowed : Action → Prop} {actions : List Action}
    (permitted : ∀ action ∈ actions, allowed action) (state : State) :
    Along step (fun _ => allowed) state actions := by
  induction actions generalizing state with
  | nil => trivial
  | cons action rest ih =>
      refine ⟨permitted action List.mem_cons_self, fun next _ => ih ?_ next⟩
      intro other member
      exact permitted other (List.mem_cons_of_mem _ member)

/-- Steps of allowed actions, one after the other, make a run. -/
theorem exists_run_of_steps {allowed : Action → Prop} {state final : State}
    (steps : Relation.ReflTransGen
      (fun before after => ∃ action, allowed action ∧ step before action = some after)
      state final) :
    ∃ actions, (∀ action ∈ actions, allowed action) ∧ run step state actions = some final := by
  induction steps with
  | refl => exact ⟨[], by simp, rfl⟩
  | tail _ last ih =>
      obtain ⟨actions, permitted, ran⟩ := ih
      obtain ⟨action, permits, stepped⟩ := last
      refine ⟨actions ++ [action], ?_, ?_⟩
      · intro other member
        rcases List.mem_append.mp member with earlier | same
        · exact permitted other earlier
        · exact List.mem_singleton.mp same ▸ permits
      · rw [run_append, ran, Option.bind_some, run_cons, stepped]
        rfl

/-- Steps that each meet the guard make a guarded run. -/
theorem exists_guarded_run {guard : State → Action → Prop} {state final : State}
    (steps : Relation.ReflTransGen
      (fun before after => ∃ action, guard before action ∧ step before action = some after)
      state final) :
    ∃ actions, Along step guard state actions ∧ run step state actions = some final := by
  induction steps using Relation.ReflTransGen.head_induction_on with
  | refl => exact ⟨[], trivial, rfl⟩
  | head first _ ih =>
      obtain ⟨action, guarded, stepped⟩ := first
      obtain ⟨actions, along, ran⟩ := ih
      refine ⟨action :: actions, ⟨guarded, ?_⟩, ?_⟩
      · intro next same
        cases stepped.symm.trans same
        exact along
      · rw [run_cons, stepped]
        exact ran

theorem run_invariant {invariant : State → Prop}
    (preserved : ∀ {state action next}, invariant state →
      step state action = some next → invariant next)
    {state final : State} {actions : List Action} (start : invariant state)
    (ran : run step state actions = some final) : invariant final := by
  induction actions generalizing state with
  | nil =>
      cases ran
      exact start
  | cons action rest ih =>
      obtain ⟨next, stepped, continued⟩ := run_cons_eq_some.mp ran
      exact ih (preserved start stepped) continued

theorem throughout_guarded {guard : State → Action → Prop} {invariant property : State → Prop}
    (preserved : ∀ {state action next}, invariant state → guard state action →
      step state action = some next → invariant next)
    (implies : ∀ {state}, invariant state → property state) {state : State}
    (start : invariant state) {actions : List Action}
    (guarded : Along step guard state actions) : Throughout step property state actions := by
  induction actions generalizing state with
  | nil => exact implies start
  | cons action rest ih =>
      refine ⟨implies start, ?_⟩
      intro next stepped
      exact ih (preserved start guarded.1 stepped) (guarded.2 next stepped)

/-- Where the invariant holds and the guard is met, another guard may be met too. -/
theorem along_guarded {guard guard' : State → Action → Prop} {invariant : State → Prop}
    (preserved : ∀ {state action next}, invariant state → guard state action →
      step state action = some next → invariant next)
    (implies : ∀ {state action}, invariant state → guard state action → guard' state action)
    {state : State} (start : invariant state) {actions : List Action}
    (guarded : Along step guard state actions) : Along step guard' state actions := by
  induction actions generalizing state with
  | nil => trivial
  | cons action rest ih =>
      refine ⟨implies start guarded.1, ?_⟩
      intro next stepped
      exact ih (preserved start guarded.1 stepped) (guarded.2 next stepped)

theorem run_guarded {guard : State → Action → Prop} {invariant : State → Prop}
    (preserved : ∀ {state action next}, invariant state → guard state action →
      step state action = some next → invariant next)
    {state final : State} {actions : List Action} (start : invariant state)
    (guarded : Along step guard state actions) (ran : run step state actions = some final) :
    invariant final := by
  induction actions generalizing state with
  | nil =>
      cases ran
      exact start
  | cons action rest ih =>
      obtain ⟨next, stepped, continued⟩ := run_cons_eq_some.mp ran
      exact ih (preserved start guarded.1 stepped) (guarded.2 next stepped) continued

theorem throughout_invariant {invariant property : State → Prop}
    (preserved : ∀ {state action next}, invariant state →
      step state action = some next → invariant next)
    (implies : ∀ {state}, invariant state → property state) {state : State}
    (start : invariant state) (actions : List Action) :
    Throughout step property state actions := by
  have unguarded : Along step (fun _ _ => True) state actions :=
    along_of_forall (fun _ _ => trivial) state
  exact throughout_guarded (fun holds _ => preserved holds) implies start unguarded

theorem throughout_start {property : State → Prop} {state : State} {actions : List Action}
    (holds : Throughout step property state actions) : property state := by
  cases actions with
  | nil => exact holds
  | cons action rest => exact holds.1

/-- Holding throughout a run is holding after each of its prefixes. -/
theorem throughout_iff_prefixes {property : State → Prop} {state : State}
    {actions : List Action} :
    Throughout step property state actions ↔
      ∀ earlier, earlier <+: actions →
        ∀ reached, run step state earlier = some reached → property reached := by
  induction actions generalizing state with
  | nil =>
      constructor
      · intro holds earlier isPrefix reached ran
        rw [List.prefix_nil.mp isPrefix] at ran
        cases ran
        exact holds
      · intro prefixes
        exact prefixes [] (List.prefix_refl []) state rfl
  | cons action rest ih =>
      constructor
      · intro holds earlier isPrefix reached ran
        cases earlier with
        | nil =>
            cases ran
            exact holds.1
        | cons first more =>
            obtain ⟨rfl, shorter⟩ := List.cons_prefix_cons.mp isPrefix
            obtain ⟨next, stepped, continued⟩ := run_cons_eq_some.mp ran
            exact ih.mp (holds.2 next stepped) more shorter reached continued
      · intro prefixes
        refine ⟨prefixes [] (List.nil_prefix) state rfl, ?_⟩
        intro next stepped
        refine ih.mpr ?_
        intro earlier isPrefix reached ran
        exact prefixes (action :: earlier) (List.cons_prefix_cons.mpr ⟨rfl, isPrefix⟩) reached
          (run_cons_eq_some.mpr ⟨next, stepped, ran⟩)

/-- When a single step keeps a property exactly if it meets the guard, a run
keeps it throughout exactly if all its steps do. -/
theorem throughout_iff_along {invariant property : State → Prop} {guard : State → Action → Prop}
    (preserved : ∀ {state action next}, invariant state →
      step state action = some next → invariant next)
    (exact_step : ∀ {state action next}, invariant state → property state →
      step state action = some next → (property next ↔ guard state action))
    (disabled : ∀ {state action}, step state action = none → guard state action)
    {state : State} (start : invariant state) (holds : property state) (actions : List Action) :
    Throughout step property state actions ↔ Along step guard state actions := by
  induction actions generalizing state with
  | nil => exact ⟨fun _ => trivial, fun _ => holds⟩
  | cons action rest ih =>
      cases stepped : step state action with
      | none =>
          simp only [Throughout, Along, stepped]
          exact ⟨fun _ => ⟨disabled stepped, by simp⟩, fun _ => ⟨holds, by simp⟩⟩
      | some next =>
          have local_iff := exact_step start holds stepped
          have kept := preserved start stepped
          constructor
          · intro throughout
            have tail := throughout.2 next stepped
            have there := throughout_start tail
            refine ⟨local_iff.mp there, ?_⟩
            intro after same
            rw [stepped] at same
            cases same
            exact (ih kept there).mp tail
          · intro along
            have there := local_iff.mpr along.1
            refine ⟨holds, ?_⟩
            intro after same
            rw [stepped] at same
            cases same
            exact (ih kept there).mpr (along.2 next stepped)

/-- Guards that agree wherever the invariant holds admit the same runs, also if
only steps that meet them keep the invariant. -/
theorem along_iff_guarded {invariant : State → Prop} {guard guard' : State → Action → Prop}
    (preserved : ∀ {state action next}, invariant state → guard' state action →
      step state action = some next → invariant next)
    (agree : ∀ {state action}, invariant state → (guard state action ↔ guard' state action))
    {state : State} (start : invariant state) (actions : List Action) :
    Along step guard state actions ↔ Along step guard' state actions := by
  induction actions generalizing state with
  | nil => exact Iff.rfl
  | cons action rest ih =>
      constructor
      · rintro ⟨first, along⟩
        have meets := (agree start).mp first
        exact ⟨meets, fun next stepped => (ih (preserved start meets stepped)).mp (along next stepped)⟩
      · rintro ⟨meets, along⟩
        refine ⟨(agree start).mpr meets, ?_⟩
        intro next stepped
        exact (ih (preserved start meets stepped)).mpr (along next stepped)

/-- Guards that agree wherever the invariant holds admit the same runs. -/
theorem along_iff {invariant : State → Prop} {guard guard' : State → Action → Prop}
    (preserved : ∀ {state action next}, invariant state →
      step state action = some next → invariant next)
    (agree : ∀ {state action}, invariant state → (guard state action ↔ guard' state action))
    {state : State} (start : invariant state) (actions : List Action) :
    Along step guard state actions ↔ Along step guard' state actions :=
  along_iff_guarded (fun holds _ => preserved holds) agree start actions

/-- Properties that agree wherever the invariant holds hold throughout the same runs. -/
theorem throughout_iff {invariant property property' : State → Prop}
    (preserved : ∀ {state action next}, invariant state →
      step state action = some next → invariant next)
    (agree : ∀ {state}, invariant state → (property state ↔ property' state))
    {state : State} (start : invariant state) (actions : List Action) :
    Throughout step property state actions ↔ Throughout step property' state actions := by
  induction actions generalizing state with
  | nil => exact agree start
  | cons action rest ih =>
      refine and_congr (agree start) (forall_congr' fun next => forall_congr' fun stepped => ?_)
      exact ih (preserved start stepped)

/-! ## Exact guards -/

/-- The property holds throughout the run, and also when the run is broken off
at any point and finished by allowed actions. -/
def ThroughoutFinished (step : State → Action → Option State) (allowed : Action → Prop)
    (property : State → Prop) (state : State) (actions : List Action) : Prop :=
  ∀ earlier, earlier <+: actions → ∀ later, (∀ action ∈ later, allowed action) →
    Throughout step property state (earlier ++ later)

theorem Along.imp {guard guard' : State → Action → Prop} {state : State} {actions : List Action}
    (along : Along step guard state actions)
    (weaker : ∀ state action, guard state action → guard' state action) :
    Along step guard' state actions := by
  induction actions generalizing state with
  | nil => trivial
  | cons action rest ih =>
      exact ⟨weaker state action along.1, fun next stepped => ih (along.2 next stepped)⟩

theorem Along.and {guard guard' : State → Action → Prop} {state : State} {actions : List Action}
    (along : Along step guard state actions) (along' : Along step guard' state actions) :
    Along step (fun state action => guard state action ∧ guard' state action) state actions := by
  induction actions generalizing state with
  | nil => trivial
  | cons action rest ih =>
      exact ⟨⟨along.1, along'.1⟩, fun next stepped => ih (along.2 next stepped) (along'.2 next stepped)⟩

theorem Along.of_prefix {guard : State → Action → Prop} {state : State}
    {earlier actions : List Action} (along : Along step guard state actions)
    (isPrefix : earlier <+: actions) : Along step guard state earlier := by
  induction earlier generalizing state actions with
  | nil => trivial
  | cons action earlier ih =>
      cases actions with
      | nil => exact absurd (List.prefix_nil.mp isPrefix) (List.cons_ne_nil _ _)
      | cons first rest =>
          obtain ⟨rfl, shorter⟩ := List.cons_prefix_cons.mp isPrefix
          exact ⟨along.1, fun next stepped => ih (along.2 next stepped) shorter⟩

theorem Along.append {guard : State → Action → Prop} {state : State}
    {earlier later : List Action} (along : Along step guard state earlier)
    (rest : ∀ reached, Along step guard reached later) :
    Along step guard state (earlier ++ later) := by
  induction earlier generalizing state with
  | nil => exact rest state
  | cons action earlier ih =>
      exact ⟨along.1, fun next stepped => ih (along.2 next stepped)⟩

/-- When guarded steps keep an invariant, allowed actions meet the guard and a
step that violates it can be finished so that the property fails, the guard is
exactly what the property needs. -/
theorem throughoutFinished_iff_along {invariant property : State → Prop}
    {guard : State → Action → Prop} {allowed : Action → Prop}
    (preserved : ∀ {state action next}, invariant state → guard state action →
      step state action = some next → invariant next)
    (implies : ∀ {state}, invariant state → property state)
    (permitted : ∀ {state action}, allowed action → guard state action)
    (disabled : ∀ {state action}, step state action = none → guard state action)
    (violated : ∀ {state action next}, invariant state → step state action = some next →
      ¬ guard state action → ∃ later, (∀ other ∈ later, allowed other) ∧
        ¬ Throughout step property next later)
    {state : State} (start : invariant state) (actions : List Action) :
    ThroughoutFinished step allowed property state actions ↔ Along step guard state actions := by
  constructor
  · intro finished
    induction actions generalizing state with
    | nil => trivial
    | cons action rest ih =>
        have guarded : guard state action := by
          by_contra violation
          cases stepped : step state action with
          | none => exact violation (disabled stepped)
          | some next =>
              obtain ⟨later, permits, fails⟩ := violated start stepped violation
              have first : [action] <+: action :: rest := List.prefix_append [action] rest
              exact fails ((finished [action] first later permits).2 next stepped)
        refine ⟨guarded, fun next stepped => ih (preserved start guarded stepped) ?_⟩
        intro earlier isPrefix later permits
        have longer : action :: earlier <+: action :: rest := List.cons_prefix_cons.mpr ⟨rfl, isPrefix⟩
        exact (finished (action :: earlier) longer later permits).2 next stepped
  · intro guarded earlier isPrefix later permits
    refine throughout_guarded preserved implies start ?_
    refine (guarded.of_prefix isPrefix).append ?_
    intro reached
    exact (along_of_forall permits reached).imp fun _ _ => permitted

/-! ## Recorded runs

The steps taken so far, each with the state it was taken from, kept beside the
state. Recording neither enables nor disables anything.
-/

abbrev Past (State Action : Type) : Type := List (State × Action)

def recorded (step : State → Action → Option State) :
    State × Past State Action → Action → Option (State × Past State Action)
  | (state, past), action => (step state action).map fun next => (next, past ++ [(state, action)])

theorem recorded_eq_some {state : State × Past State Action} {action : Action}
    {next : State × Past State Action} :
    recorded step state action = some next ↔
      step state.1 action = some next.1 ∧ next.2 = state.2 ++ [(state.1, action)] := by
  obtain ⟨reached, past⟩ := next
  rw [recorded, Option.map_eq_some_iff]
  constructor
  · rintro ⟨after, stepped, same⟩
    cases same
    exact ⟨stepped, rfl⟩
  · rintro ⟨stepped, rfl⟩
    exact ⟨reached, stepped, rfl⟩

theorem throughout_recorded {property : State → Prop} {state : State} {past : Past State Action}
    {actions : List Action} :
    Throughout (recorded step) (fun history => property history.1) (state, past) actions ↔
      Throughout step property state actions := by
  induction actions generalizing state past with
  | nil => exact Iff.rfl
  | cons action rest ih =>
      refine and_congr_right ?_
      intro _
      constructor
      · intro throughout next stepped
        exact ih.mp (throughout (next, past ++ [(state, action)])
          (recorded_eq_some.mpr ⟨stepped, rfl⟩))
      · rintro throughout ⟨next, later⟩ stepped
        exact ih.mpr (throughout next (recorded_eq_some.mp stepped).1)

theorem along_recorded {guard : State → Action → Prop} {state : State} {past : Past State Action}
    {actions : List Action} :
    Along (recorded step) (fun history => guard history.1) (state, past) actions ↔
      Along step guard state actions := by
  induction actions generalizing state past with
  | nil => exact Iff.rfl
  | cons action rest ih =>
      refine and_congr_right ?_
      intro _
      constructor
      · intro along next stepped
        exact ih.mp (along (next, past ++ [(state, action)]) (recorded_eq_some.mpr ⟨stepped, rfl⟩))
      · rintro along ⟨next, later⟩ stepped
        exact ih.mpr (along next (recorded_eq_some.mp stepped).1)

theorem exists_recorded {state final : State} {actions : List Action}
    (ran : run step state actions = some final) (past : Past State Action) :
    ∃ later, run (recorded step) (state, past) actions = some (final, later) := by
  induction actions generalizing state past with
  | nil =>
      cases ran
      exact ⟨past, rfl⟩
  | cons action rest ih =>
      obtain ⟨next, stepped, continued⟩ := run_cons_eq_some.mp ran
      obtain ⟨later, recorded⟩ := ih continued (past ++ [(state, action)])
      exact ⟨later, run_cons_eq_some.mpr ⟨_, recorded_eq_some.mpr ⟨stepped, rfl⟩, recorded⟩⟩

/-- What the past steps let an observer see, in order. -/
def observed {β : Type} (observe : State → Action → Option β) (past : Past State Action) : List β :=
  past.filterMap fun entry => observe entry.1 entry.2

theorem observed_none {β : Type} {observe : State → Action → Option β} {past : Past State Action}
    {state : State} {action : Action} (quiet : observe state action = none) :
    observed observe (past ++ [(state, action)]) = observed observe past := by
  simp [observed, quiet]

theorem observed_some {β : Type} {observe : State → Action → Option β} {past : Past State Action}
    {state : State} {action : Action} {seen : β} (sees : observe state action = some seen) :
    observed observe (past ++ [(state, action)]) = observed observe past ++ [seen] := by
  simp [observed, sees]

theorem observed_append {β : Type} (observe : State → Action → Option β) (past : Past State Action)
    (state : State) (action : Action) :
    observed observe (past ++ [(state, action)]) =
      observed observe past ++ (observe state action).toList := by
  cases sees : observe state action with
  | none => rw [observed_none sees, Option.toList_none, List.append_nil]
  | some seen => rw [observed_some sees, Option.toList_some]

theorem filterMap_observed_append {β γ : Type} (observe : State → Action → Option β)
    (keep : β → Option γ) (past : Past State Action) (state : State) (action : Action) :
    (observed observe (past ++ [(state, action)])).filterMap keep =
      (observed observe past).filterMap keep ++ ((observe state action).bind keep).toList := by
  rw [observed_append, List.filterMap_append]
  cases observe state action with
  | none => rfl
  | some seen => cases kept : keep seen <;> simp [kept]

/-- An observer of actions sees those of the run. -/
theorem observed_run {β : Type} {observe : Action → Option β} {history final : State × Past State Action}
    {actions : List Action} (ran : run (recorded step) history actions = some final) :
    observed (fun _ => observe) final.2 =
      observed (fun _ => observe) history.2 ++ actions.filterMap observe := by
  induction actions generalizing history with
  | nil =>
      cases ran
      rw [List.filterMap_nil, List.append_nil]
  | cons action rest ih =>
      obtain ⟨next, stepped, continued⟩ := run_cons_eq_some.mp ran
      have told : observed (fun _ => observe) next.2 =
          observed (fun _ => observe) history.2 ++ (observe action).toList := by
        rw [(recorded_eq_some.mp stepped).2]
        exact observed_append ..
      rw [ih continued, told, List.append_assoc]
      cases silent : observe action with
      | none => rw [List.filterMap_cons_none silent, Option.toList_none, List.nil_append]
      | some seen => rw [List.filterMap_cons_some silent, Option.toList_some, List.singleton_append]

/-- What holds of all that was seen and of what is seen now holds of both. -/
theorem forall_observed {β : Type} {observe : State → Action → Option β} {past : Past State Action}
    {state : State} {action : Action} {property : β → Prop}
    (earlier : ∀ seen ∈ observed observe past, property seen)
    (now : ∀ seen, observe state action = some seen → property seen) :
    ∀ seen ∈ observed observe (past ++ [(state, action)]), property seen := by
  intro seen member
  rw [observed_append] at member
  rcases List.mem_append.mp member with old | new
  · exact earlier seen old
  · exact now seen (Option.mem_toList.mp new)

end TransitionSystem
