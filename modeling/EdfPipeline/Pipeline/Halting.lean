import EdfPipeline.Pipeline.Stage

/-!
# Stages that end

What the wiring needs of a scheduler to come to an end: `running` is cleared
for good by the end signal, the steps its threads still take are bounded, and
none of them is stuck before its end.
-/

set_option autoImplicit false

namespace EdfPipeline

/-- Whether `running` stays set. -/
def Signal.continues : Signal → Bool
  | .stop => false
  | .arrive _ _ | .tick _ => true

def continues {Action : Type} : Signal ⊕ Action → Bool
  | .inl signal => signal.continues
  | .inr _ => true

/-- Once `running` is cleared, `rank` bounds the steps that are still taken, but for those
that only wait for time to pass, until all threads have `ended`. -/
structure HaltingStage extends Stage where
  rank : State → Nat
  ended : State → Prop
  waits : State → Action → Bool
  initial_running : running initial = true
  flag : ∀ {state action next}, moves state action = some next →
    running next = (running state && continues action)
  told_rank : ∀ {state signal next}, moves state (.inl signal) = some next → rank next ≤ rank state
  work_rank : ∀ {state action next}, running state = false → moves state (.inr action) = some next →
    rank next + (!waits state action).toNat ≤ rank state
  progress : ∀ {state}, Kept state → running state = false → ¬ ended state →
    ∃ elapsed action, ∀ middle, moves state (.inl (.tick elapsed)) = some middle →
      waits middle action = false ∧ ∃ next, moves middle (.inr action) = some next

/-- Processing that has begun is over some time later. -/
theorem over_in_time (clock start : Instant) (time : Duration) :
    ¬ clock + (start + time) - start < time := by
  rw [Nat.add_left_comm, Nat.add_sub_cancel_left]
  exact Nat.not_lt.mpr (Nat.le_add_left _ _)

/-! ## Threads with a flag of their own -/

namespace Wiring

variable {State Action : Type} {wiring : Wiring Action} {step : State → Action → Option State}
  {state next : State}

theorem moves_flag {action : Signal ⊕ Action} {running : State → Bool} {goes : Action → Bool}
    (flag : ∀ {state action next}, step state action = some next →
      running next = (running state && goes action))
    (stops : goes wiring.stop = false) (arrives : ∀ packet, goes (wiring.arrive packet) = true)
    (ticks : ∀ elapsed, goes (wiring.tick elapsed) = true)
    (works : ∀ action, wiring.own action = true → goes action = true)
    (moved : wiring.moves step state action = some next) :
    running next = (running state && continues action) := by
  cases action with
  | inl signal =>
      obtain ⟨action, stepped, told⟩ := receive_step moved
      rw [flag stepped]
      cases signal with
      | arrive priority packet =>
          rw [told.2, arrives]
          rfl
      | tick elapsed =>
          rw [told, ticks]
          rfl
      | stop =>
          rw [told, stops]
          rfl
  | inr action =>
      obtain ⟨own, stepped⟩ := work_step moved
      rw [flag stepped, works action own]
      rfl

/-- What goes on when time has passed is a step of the threads. -/
theorem progress {action : Action} {elapsed : Duration} {waits : State → Action → Bool}
    (own : wiring.own action = true)
    (goes : ∀ middle, step state (wiring.tick elapsed) = some middle →
      waits middle action = false ∧ ∃ next, step middle action = some next) :
    ∃ elapsed action, ∀ middle, wiring.moves step state (.inl (.tick elapsed)) = some middle →
      waits middle action = false ∧ ∃ next, wiring.moves step middle (.inr action) = some next := by
  refine ⟨elapsed, action, ?_⟩
  intro middle ticked
  obtain ⟨patient, next, stepped⟩ := goes middle ticked
  exact ⟨patient, next, (if_pos own).trans stepped⟩

end Wiring

/-! ## Threads that read the flag between two iterations -/

namespace LoopWiring

variable {State Action : Type} {wiring : LoopWiring State Action} {step : State → Action → Option State}
  {loop next : Loop State}

theorem moves_flag {action : Signal ⊕ Action} (moved : wiring.moves step loop action = some next) :
    next.running = (loop.running && continues action) := by
  rcases moves_behind moved with ⟨own, found, _, same⟩ | ⟨rfl, rfl⟩
  · have goes : continues action = true := by
      cases action with
      | inl signal =>
          cases signal with
          | arrive | tick => rfl
          | stop => cases found
      | inr action => rfl
    rw [same, goes, Bool.and_true]
  · exact (Bool.and_false _).symm

theorem told_rank {rank : State → Nat} {signal : Signal}
    (arrives : ∀ {scheduler priority packet action after}, wiring.arrive priority packet = some action →
      step scheduler action = some after → rank after ≤ rank scheduler)
    (ticks : ∀ {scheduler elapsed after}, step scheduler (wiring.tick elapsed) = some after →
      rank after ≤ rank scheduler)
    (moved : wiring.moves step loop (.inl signal) = some next) :
    rank next.scheduler ≤ rank loop.scheduler := by
  rcases moves_behind moved with ⟨own, found, stepped, _⟩ | ⟨_, rfl⟩
  · cases signal with
    | arrive priority packet => exact arrives found stepped
    | tick elapsed =>
        cases found
        exact ticks stepped
    | stop => cases found
  · exact Nat.le_refl _

/-- Without the flag an iteration goes on, but none begins. -/
theorem stopped_work {action : Action} (stopped : loop.running = false)
    (moved : wiring.moves step loop (.inr action) = some next) :
    wiring.own action = true ∧ wiring.begins loop.scheduler action = false ∧
      step loop.scheduler action = some next.scheduler := by
  rcases moves_behind moved with ⟨own, found, stepped, _⟩ | ⟨ended, _⟩
  · simp only [behind] at found
    split at found
    · rename_i enabled
      cases found
      refine ⟨enabled.1, ?_, stepped⟩
      rw [stopped] at enabled
      exact Bool.eq_false_iff.mpr fun begins => by cases enabled.2 begins
    · cases found
  · cases ended

/-- What goes on in the scheduler, when time has passed, goes on in the thread. -/
theorem progress {action : Action} {elapsed : Duration} {waits : State → Action → Bool}
    (own : wiring.own action = true)
    (goes : ∀ scheduler, step loop.scheduler (wiring.tick elapsed) = some scheduler →
      wiring.begins scheduler action = false ∧ waits scheduler action = false ∧
        ∃ after, step scheduler action = some after) :
    ∃ elapsed action, ∀ middle, wiring.moves step loop (.inl (.tick elapsed)) = some middle →
      waits middle.scheduler action = false ∧
        ∃ next, wiring.moves step middle (.inr action) = some next := by
  refine ⟨elapsed, action, ?_⟩
  intro middle ticked
  rcases moves_behind ticked with ⟨own', found, stepped, _⟩ | ⟨ended, _⟩
  · cases found
    obtain ⟨begun, patient, after, continued⟩ := goes _ stepped
    have enabled : wiring.own action ∧ (wiring.begins middle.scheduler action → middle.running) := by
      refine ⟨own, ?_⟩
      intro begins
      rw [begun] at begins
      cases begins
    refine ⟨patient, { middle with scheduler := after }, ?_⟩
    change ((if _ then some action else none).bind _) = _
    rw [if_pos enabled, Option.bind_some, continued]
    rfl
  · cases ended

end LoopWiring

end EdfPipeline
