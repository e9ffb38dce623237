import EdfPipeline.Ingress.BudgetMismatch
import EdfPipeline.SingleCpu.Budgets

/-!
# One registration, two schedulers

The ingress and the single-CPU scheduler register sockets alike. The packets they
make of them have the same budgets exactly if the first socket of each class
speaks for the others.
-/

set_option autoImplicit false

namespace EdfPipeline

open TransitionSystem

/-- The same call to the single-CPU scheduler. -/
def Registration.withoutQuantum (registration : Registration) : Registration :=
  { registration with quantum := 0 }

/-- The packets of the ingress carry the budgets of their sockets, and so the budgets
that the single-CPU scheduler gives to packets of the same sockets. -/
structure BudgetsKept (called : List Registration) : Prop where
  carried : ∀ actions, actions.filterMap Ingress.Action.registration = called →
    Throughout (recorded Ingress.State.step) Ingress.State.CarriesBudgets
      (Ingress.State.initial, []) actions
  agreed : ∀ ingress single, ingress.filterMap Ingress.Action.registration = called →
    single.filterMap SingleCpu.Action.registration = called.map Registration.withoutQuantum →
    ∀ final final',
      TransitionSystem.run (recorded Ingress.State.step) (Ingress.State.initial, []) ingress =
        some final →
      TransitionSystem.run (recorded SingleCpu.State.step) (SingleCpu.State.initial, []) single =
        some final' →
      ∀ reading ∈ observed Ingress.State.readingAt final.2,
        ∀ reading' ∈ observed SingleCpu.State.readingAt final'.2,
          reading.priority = reading'.priority → reading.place = reading'.place →
            reading.socket = reading'.socket ∧
              reading.packet.latencyBudget = reading'.packet.latencyBudget

theorem registeredFor_withoutQuantum (priority : Priority) (called : List Registration) :
    registeredFor priority (called.map Registration.withoutQuantum) =
      (registeredFor priority called).map Registration.withoutQuantum := by
  rw [registeredFor, List.filter_map]
  rfl

/-- Two packets from one place have its budget. -/
theorem Reading.CarriesBudget.same {called : List Registration} {reading reading' : Reading}
    (carries : reading.CarriesBudget called)
    (carries' : reading'.CarriesBudget (called.map Registration.withoutQuantum))
    (priority : reading.priority = reading'.priority) (place : reading.place = reading'.place) :
    reading.socket = reading'.socket ∧
      reading.packet.latencyBudget = reading'.packet.latencyBudget := by
  obtain ⟨registration, found, socket, budget⟩ := carries
  obtain ⟨stripped, found', socket', budget'⟩ := carries'
  rw [← priority, ← place, registeredFor_withoutQuantum, List.getElem?_map, found] at found'
  cases found'
  exact ⟨socket.symm.trans socket', budget.trans budget'.symm⟩

/-- Whatever is registered, the budgets are kept exactly if the sockets of a class that
can be read from agree on one. -/
theorem budgets_kept_iff_agreeing (called : List Registration) :
    BudgetsKept called ↔ Ingress.Agreeing called := by
  rw [← Ingress.budgets_carried_iff_agreeing]
  constructor
  · exact BudgetsKept.carried
  · intro carried
    refine ⟨carried, ?_⟩
    intro ingress single calls calls' final final' ran ran' reading seen reading' seen' priority place
    have own : reading.CarriesBudget (Ingress.registrations final.2) :=
      throughout_iff_prefixes.mp (carried ingress calls) ingress (List.prefix_refl _) final ran
        reading seen
    have own' : reading'.CarriesBudget (SingleCpu.registrations final'.2) :=
      throughout_iff_prefixes.mp (SingleCpu.own_budget_throughout single) single
        (List.prefix_refl _) final' ran' reading' seen'
    rw [Ingress.registrations_run ran, calls] at own
    rw [SingleCpu.registrations_run ran', calls'] at own'
    exact own.same own' priority place

/-- Two High sockets with budgets of 1 ms and 5 ms. -/
def twoBudgets : List Registration :=
  [⟨0, .high, Duration.fromMillis 1, 16⟩, ⟨1, .high, Duration.fromMillis 5, 16⟩]

/-- The first round finds the first socket empty and reads the second one. -/
def readSecond : List Ingress.Action :=
  twoBudgets.map Ingress.Action.ofRegistration ++
    [.run, .run, .run, .run, .recv .wouldBlock true, .run, .recv (.datagram [7]) true]

theorem second_budget_ignored : ¬ BudgetsKept twoBudgets := by
  intro kept
  have read : (TransitionSystem.run (recorded Ingress.State.step) (Ingress.State.initial, [])
      readSecond).map (fun final => observed Ingress.State.readingAt final.2) =
        some [{
          priority := .high
          place := 1
          socket := 1
          packet := .fromBuffer 0 0 .high [7] (Duration.fromMillis 1) }] := by
    decide +kernel
  obtain ⟨final, ran, seen⟩ := Option.map_eq_some_iff.mp read
  have own := throughout_iff_prefixes.mp (kept.carried readSecond rfl) readSecond
    (List.prefix_refl _) final ran _ (seen ▸ List.mem_singleton_self _)
  rw [Ingress.registrations_run ran] at own
  obtain ⟨registration, found, _, budget⟩ := own
  cases found
  exact absurd budget (by decide)

end EdfPipeline
