import EdfPipeline.Ingress.Visits

/-!
# The end of the ingress

When `running` is cleared, a read in progress is finished, the visit and the
round are left and `process_sockets` returns.
-/

set_option autoImplicit false

namespace EdfPipeline.Ingress

/-- The steps until the return, when no visit is begun any more. -/
def Pc.rank : Pc → Nat
  | .returned => 0
  | .top => 1
  | .flow _ => 2
  | .visit _ _ => 3
  | .poll _ _ _ _ => 4
  | .receive _ _ _ _ => 5

/-- The first of the sockets to come is read. -/
def Pc.Placed : Pc → Prop
  | .receive _ _ rest _ => rest ≠ []
  | _ => True

/-- Whether `running` stays set. -/
def Action.continues : Action → Bool
  | .stop => false
  | .addSocket _ _ _ _ | .tick _ | .run | .recv _ _ => true

namespace State

variable {state next : State}

theorem enter_pc (state : State) (round : Round) (priority : Priority) (sockets : List Socket)
    (flow : FlowState) :
    (∃ later, (state.enter round priority sockets flow).pc = .flow later) ∨
      ∃ visit, (state.enter round priority sockets flow).pc = .visit round visit := by
  simp only [enter]
  split
  · exact .inl ⟨_, rfl⟩
  · exact .inr ⟨_, rfl⟩

theorem step_placed {action : Action} (placed : state.pc.Placed)
    (stepped : state.step action = some next) : next.pc.Placed := by
  cases step_move stepped with
  | addSocket | tick | stop | idle => exact placed
  | quit | begin | skip | finish | look | again | dry | leave => trivial
  | enter =>
      rcases state.enter_pc _ _ _ _ with ⟨_, place⟩ | ⟨_, place⟩
      · rw [place]
        trivial
      · rw [place]
        trivial
  | socket place filled => exact filled
  | read place =>
      simp only [read]
      split <;> trivial

theorem step_running {action : Action} (stepped : state.step action = some next) :
    next.running = (state.running && action.continues) := by
  cases step_move stepped with
  | stop => exact (Bool.and_false _).symm
  | enter =>
      simp only [enter]
      split <;> exact (Bool.and_true _).symm
  | addSocket | tick | idle | quit | begin | skip | finish | look | socket | again | dry | read
  | leave => exact (Bool.and_true _).symm

theorem runStep_rank (stopped : state.running = false) (stepped : state.runStep = some next) :
    next.pc.rank + 1 ≤ state.pc.rank := by
  cases place : state.pc with
  | top =>
      simp only [runStep, place, stopped, Bool.false_eq_true, if_false, Option.some.injEq] at stepped
      cases stepped
      exact Nat.le_refl 1
  | flow round =>
      simp only [runStep, place, stopped, Bool.false_eq_true, if_false, ite_self,
        Option.some.injEq] at stepped
      cases stepped
      exact Nat.le_refl 2
  | visit round visit =>
      simp only [runStep, place, stopped, Bool.false_eq_true, not_false_eq_true, true_or, if_true,
        Option.some.injEq] at stepped
      cases stepped
      exact Nat.le_refl 3
  | poll round visit rest readAny =>
      have left : next = state.polled round visit readAny := by
        cases rest with
        | nil => simpa [runStep, place] using stepped.symm
        | cons socket rest => simpa [runStep, place, stopped] using stepped.symm
      rw [left]
      cases readAny with
      | true => exact Nat.le_refl 4
      | false => exact Nat.le_add_right 3 1
  | receive | returned => simp [runStep, place] at stepped

theorem recvStep_rank {outcome : RecvOutcome} {room : Bool}
    (stepped : state.recvStep outcome room = some next) : next.pc.rank + 1 ≤ state.pc.rank := by
  unfold recvStep at stepped
  split at stepped
  · rename_i place
    rw [place]
    split at stepped
    · cases stepped
      simp only [read]
      split
      · exact Nat.le_refl 5
      · exact Nat.le_add_right 4 1
    · cases stepped
      exact Nat.le_refl 5
    · cases stepped
      exact Nat.le_refl 5
    · cases stepped
      exact Nat.le_refl 5
  · cases stepped

/-- The thread goes on until it returns. -/
theorem progress (placed : state.pc.Placed) (active : state.pc ≠ .returned) :
    (∃ next, state.step .run = some next) ∨ ∃ next, state.step (.recv .wouldBlock true) = some next := by
  cases place : state.pc with
  | top =>
      refine .inl ?_
      simp only [step, runStep, place]
      split
      · split <;> exact ⟨_, rfl⟩
      · exact ⟨_, rfl⟩
  | flow round =>
      refine .inl ?_
      simp only [step, runStep, place]
      split
      · split
        · split
          · exact ⟨_, rfl⟩
          · split <;> exact ⟨_, rfl⟩
        · exact ⟨_, rfl⟩
      · exact ⟨_, rfl⟩
  | visit round visit =>
      refine .inl ?_
      simp only [step, runStep, place]
      split <;> exact ⟨_, rfl⟩
  | poll round visit rest readAny =>
      refine .inl ?_
      simp only [step, runStep, place]
      split
      · exact ⟨_, rfl⟩
      · split <;> exact ⟨_, rfl⟩
  | receive round visit rest readAny =>
      refine .inr ?_
      rw [place] at placed
      cases rest with
      | nil => exact absurd rfl placed
      | cons socket rest => simp [step, recvStep, place]
  | returned => exact absurd place active

end State

end EdfPipeline.Ingress
