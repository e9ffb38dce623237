import EdfPipeline.Library.TransitionSystem

/-!
# Rankings

Where every step that counts brings a number down and no step brings it up, a
run has no more such steps than the number it starts with.
-/

set_option autoImplicit false

namespace TransitionSystem

variable {State Action : Type}

/-- The steps of a run that count. -/
def counted (step : State → Action → Option State) (counts : State → Action → Bool) :
    State → List Action → Nat
  | _, [] => 0
  | state, action :: rest =>
      (counts state action).toNat + (step state action).elim 0 fun next => counted step counts next rest

variable {step : State → Action → Option State} {counts : State → Action → Bool}

theorem counted_le {invariant : State → Prop} {rank : State → Nat}
    (preserved : ∀ {state action next}, invariant state → step state action = some next →
      invariant next)
    (ranked : ∀ {state action next}, invariant state → step state action = some next →
      rank next + (counts state action).toNat ≤ rank state)
    {state final : State} {actions : List Action} (holds : invariant state)
    (ran : run step state actions = some final) :
    counted step counts state actions + rank final ≤ rank state := by
  induction actions generalizing state with
  | nil =>
      cases ran
      exact Nat.le_of_eq (Nat.zero_add _)
  | cons action rest ih =>
      obtain ⟨next, stepped, continued⟩ := run_cons_eq_some.mp ran
      have later := ih (preserved holds stepped) continued
      have first := ranked holds stepped
      simp only [counted, stepped, Option.elim_some]
      omega

/-- Where the number can be brought down until the end, the end can be reached. -/
theorem exists_end {invariant ended : State → Prop} {rank : State → Nat}
    (preserved : ∀ {state action next}, invariant state → step state action = some next →
      invariant next)
    (descends : ∀ {state}, invariant state → ¬ ended state →
      ∃ actions next, run step state actions = some next ∧ rank next < rank state)
    {state : State} (holds : invariant state) :
    ∃ actions final, run step state actions = some final ∧ ended final := by
  induction height : rank state using Nat.strongRecOn generalizing state with
  | _ bound ih =>
      by_cases finished : ended state
      · exact ⟨[], state, rfl, finished⟩
      · obtain ⟨first, middle, ran, lower⟩ := descends holds finished
        obtain ⟨later, final, continued, finished⟩ :=
          ih (rank middle) (height ▸ lower) (run_invariant preserved holds ran) rfl
        refine ⟨first ++ later, final, ?_, finished⟩
        rw [run_append, ran]
        exact continued

end TransitionSystem
