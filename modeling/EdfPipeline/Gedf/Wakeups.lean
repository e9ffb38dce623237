import EdfPipeline.Gedf.Moves

/-!
# Wakeups of the shared run queue

A worker goes to sleep with the mutex held since it found the heap empty, so a
task can only be pushed before it looks or after it sleeps, and then the
notification reaches it. `running` is not guarded by the mutex: a worker that
has read it goes to sleep even if the last notification has passed by then.
-/

set_option autoImplicit false

namespace EdfPipeline.Gedf

variable {κ : Type}

namespace State

variable {n : Nat}

/-! ## While the scheduler runs -/

/-- The heap has tasks, every worker sleeps and no notification is due. -/
def Stranded (state : State κ n) : Prop :=
  state.heap ≠ [] ∧ (∀ id, state.workers id = .waiting) ∧ ∀ rest, state.dispatcher ≠ .notify rest

/-- Between looking at the heap and sleeping a worker finds it empty. -/
structure Served (state : State κ n) : Prop where
  empty : ∀ id, state.workers id = .load ∨ state.workers id = .wait → state.heap = []
  attended : state.heap ≠ [] →
    (∃ id, state.workers id ≠ .waiting) ∨ ∃ rest, state.dispatcher = .notify rest

theorem initial_served : (initial κ n).Served where
  empty := fun _ _ => rfl
  attended := fun filled => absurd rfl filled

theorem Served.not_stranded {state : State κ n} (served : state.Served) : ¬ state.Stranded := by
  rintro ⟨filled, asleep, idle⟩
  rcases served.attended filled with ⟨id, awake⟩ | ⟨rest, due⟩
  · exact awake (asleep id)
  · exact idle rest due

/-- A worker that moves on is awake, unless it found the heap empty. -/
theorem Served.goto {state : State κ n} (served : state.Served) (id : Fin n) {pc : WorkerPc κ}
    (dispatcher : DispatcherPc κ)
    (moved : state.heap = [] ∨ pc ≠ .load ∧ pc ≠ .wait ∧ pc ≠ .waiting) :
    { state.goto id pc with dispatcher }.Served := by
  rcases moved with idle | ⟨loads, waits, sleeps⟩
  · exact ⟨fun _ _ => idle, fun filled => absurd idle filled⟩
  · refine ⟨?_, fun _ => .inl ⟨id, ?_⟩⟩
    · intro other here
      by_cases same : other = id
      · subst same
        simp [State.goto, loads, waits] at here
      · simp only [State.goto, Function.update_of_ne same] at here
        exact served.empty other here
    · simpa [State.goto] using sleeps

theorem WorkerMove.served {state next : State κ n} {id : Fin n} (move : WorkerMove state id next)
    (served : state.Served) : next.Served := by
  cases move with
  | check place empty => exact served.goto id state.dispatcher (.inl empty)
  | load place => exact served.goto id state.dispatcher (.inl (served.empty id (.inl place)))
  | wait place => exact served.goto id state.dispatcher (.inl (served.empty id (.inr place)))
  | spin place unfinished => exact served
  | lock | process | done => exact served.goto id state.dispatcher (.inr (by simp))

variable [LinearOrder κ] {key : Priority → Packet → κ}

theorem DispatchMove.served {state next : State κ n} (move : DispatchMove key state next)
    (served : state.Served) : next.Served := by
  have still (dispatcher : DispatcherPc κ) (quiet : ∀ rest, state.dispatcher ≠ .notify rest) :
      { state with dispatcher }.Served := by
    refine ⟨served.empty, fun filled => .inl ?_⟩
    rcases served.attended filled with awake | ⟨rest, due⟩
    · exact awake
    · exact absurd due (quiet rest)
  cases move with
  | top place | pass place | skip place => exact still _ (by simp [place])
  | @take priority rest packet remaining place taken =>
      have quiet := still (.poll rest) (by simp [place])
      refine ⟨quiet.empty, fun filled => .inl ?_⟩
      rcases quiet.attended filled with awake | ⟨_, due⟩
      · exact awake
      · cases due
  | @push task rest place free =>
      refine ⟨?_, fun _ => .inr ⟨rest, rfl⟩⟩
      intro id here
      have unheld := free id
      change state.workers id = .load ∨ state.workers id = .wait at here
      rcases here with loads | waits
      · simp [loads, WorkerPc.holdsMutex] at unheld
      · simp [waits, WorkerPc.holdsMutex] at unheld
  | wakeAll place =>
      refine ⟨fun id here => served.empty id ?_, fun filled => .inl ?_⟩
      · by_cases asleep : state.workers id = .waiting
        · simp [asleep] at here
        · simpa [asleep] using here
      · rcases served.attended filled with ⟨id, awake⟩ | ⟨rest, due⟩
        · exact ⟨id, by simp [awake]⟩
        · simp [place] at due

theorem step_served [NeZero n] {state next : State κ n} {action : Action κ n}
    (served : state.Served) (stepped : state.step key action = some next) : next.Served := by
  cases step_moves stepped with
  | arrive | disconnect | tick | stop => exact ⟨served.empty, served.attended⟩
  | dispatch move => exact move.served served
  | @notifyOne id rest place asleep => exact served.goto id (.poll rest) (.inr (by simp))
  | notifyNobody place awake => exact ⟨served.empty, fun _ => .inl ⟨0, awake 0⟩⟩
  | run move => exact move.served served
  | @pop id task place greatest =>
      have kept : { state with heap := state.heap.erase task }.Served := by
        refine ⟨?_, ?_⟩
        · intro other here
          have empty := served.empty other here
          have member := greatest.1
          rw [empty] at member
          cases member
        · intro filled
          refine served.attended fun empty => filled ?_
          simp [empty]
      exact kept.goto id state.dispatcher (.inr (by simp))
  | @wake id asleep => exact served.goto id state.dispatcher (.inr (by simp))
  | @forward id task room place =>
      have kept := served.goto id state.dispatcher (.inr (by simp : WorkerPc.lock ≠ .load ∧ _))
      exact ⟨kept.empty, kept.attended⟩

end State

theorem workerCoreList_nonempty (dispatcherCore : Nat) (workerCores : List Nat) :
    NeZero (workerCoreList dispatcherCore workerCores).length := by
  refine ⟨?_⟩
  intro none
  unfold workerCoreList at none
  split at none
  · cases none
  · rename_i several
    exact several (List.length_eq_zero_iff.mp none)

section Running

variable [LinearOrder κ]

/-- On any cores and for either key, no run leaves tasks in the heap with every
worker asleep and no notification due. -/
theorem never_stranded (key : Priority → Packet → κ) (dispatcherCore : Nat) (workerCores : List Nat)
    (actions : List (Action κ (workerCoreList dispatcherCore workerCores).length)) :
    TransitionSystem.Throughout (State.step key) (fun state => ¬ state.Stranded)
      (State.initial κ (workerCoreList dispatcherCore workerCores).length) actions := by
  have := workerCoreList_nonempty dispatcherCore workerCores
  exact TransitionSystem.throughout_invariant State.step_served State.Served.not_stranded
    State.initial_served actions

end Running

/-! ## Shutdown -/

namespace State

variable {n : Nat}

/-- The dispatcher has returned and a worker sleeps for ever. -/
def Asleep (state : State κ n) : Prop :=
  state.running = false ∧ state.dispatcher = .returned ∧ ∃ id, state.workers id = .waiting

instance [DecidableEq κ] (state : State κ n) : Decidable state.Asleep :=
  inferInstanceAs (Decidable (_ ∧ _ ∧ ∃ id, state.workers id = .waiting))

/-- The last notification comes while no worker is between reading `running` and
going to sleep. -/
def WakesAll (state : State κ n) : Action κ n → Prop
  | .dispatch => state.dispatcher = .wakeAll → ∀ id, state.workers id ≠ .wait
  | _ => True

/-- The next steps of workers. -/
def Continues (action : Action κ n) : Prop := ∃ id, action = .run id

structure Roused (state : State κ n) : Prop where
  stopped : state.dispatcher = .wakeAll ∨ state.dispatcher = .returned → state.running = false
  awake : state.dispatcher = .returned → ∀ id, state.workers id ≠ .wait ∧ state.workers id ≠ .waiting

theorem initial_roused : (initial κ n).Roused where
  stopped := by simp [initial]
  awake := by simp [initial]

theorem Roused.not_asleep {state : State κ n} (roused : state.Roused) : ¬ state.Asleep := by
  rintro ⟨_, returned, id, sleeps⟩
  exact (roused.awake returned id).2 sleeps

/-- After the dispatcher has returned, no worker takes the way to sleep. -/
theorem Roused.goto {state : State κ n} (roused : state.Roused) (id : Fin n) {pc : WorkerPc κ}
    (moved : state.dispatcher = .returned → pc ≠ .wait ∧ pc ≠ .waiting) :
    (state.goto id pc).Roused := by
  refine ⟨roused.stopped, ?_⟩
  intro returned other
  by_cases same : other = id
  · subst same
    simpa [State.goto] using moved returned
  · simpa [State.goto, Function.update_of_ne same] using roused.awake returned other

theorem WorkerMove.roused {state next : State κ n} {id : Fin n} (move : WorkerMove state id next)
    (roused : state.Roused) : next.Roused := by
  cases move with
  | load place =>
      refine roused.goto id ?_
      intro returned
      simp [roused.stopped (.inr returned)]
  | wait place => exact roused.goto id fun returned => absurd place (roused.awake returned id).1
  | spin place unfinished => exact roused
  | lock | check | process | done => exact roused.goto id (by simp)

variable [LinearOrder κ] {key : Priority → Packet → κ}

theorem DispatchMove.roused {state next : State κ n} (move : DispatchMove key state next)
    (roused : state.Roused) (wakes : state.WakesAll (.dispatch : Action κ n)) : next.Roused := by
  cases move with
  | top place =>
      by_cases running : state.running = true
      · exact ⟨by simp [running], by simp [running]⟩
      · exact ⟨fun _ => Bool.eq_false_iff.mpr running, by simp [running]⟩
  | wakeAll place =>
      refine ⟨fun _ => roused.stopped (.inl place), ?_⟩
      intro _ id
      have settled := wakes place id
      by_cases asleep : state.workers id = .waiting
      · simp [asleep]
      · simpa [asleep] using settled
  | pass | take | skip | push => exact ⟨by simp, by simp⟩

theorem step_roused {state next : State κ n} {action : Action κ n} (roused : state.Roused)
    (wakes : state.WakesAll action) (stepped : state.step key action = some next) : next.Roused := by
  cases step_moves stepped with
  | arrive | disconnect | tick => exact ⟨roused.stopped, roused.awake⟩
  | stop => exact ⟨fun _ => rfl, roused.awake⟩
  | dispatch move => exact move.roused roused wakes
  | notifyOne | notifyNobody => exact ⟨by simp, by simp⟩
  | run move => exact move.roused roused
  | @pop id task place greatest =>
      have kept : { state with heap := state.heap.erase task }.Roused :=
        ⟨roused.stopped, roused.awake⟩
      exact kept.goto id (by simp)
  | @wake id asleep => exact roused.goto id (by simp)
  | @forward id task room place =>
      have kept := roused.goto id (by simp : _ → WorkerPc.lock ≠ .wait ∧ WorkerPc.lock ≠ .waiting)
      exact ⟨kept.stopped, kept.awake⟩

/-- A worker the last notification missed goes to sleep in its next step. -/
theorem missed_sleeps {state next : State κ n} {action : Action κ n} (roused : state.Roused)
    (stepped : state.step key action = some next) (missed : ¬ state.WakesAll action) :
    ∃ later, (∀ other ∈ later, Continues other) ∧
      ¬ TransitionSystem.Throughout (State.step key) (fun state => ¬ state.Asleep) next later := by
  cases action with
  | dispatch =>
      simp only [WakesAll, not_forall, not_not] at missed
      obtain ⟨place, id, waits⟩ := missed
      have stopped := roused.stopped (.inl place)
      simp only [step, dispatch, place, Option.some.injEq] at stepped
      subst stepped
      refine ⟨[.run id], by simp [Continues], ?_⟩
      intro throughout
      refine throughout.2 (State.goto { state with
        workers := fun id => if state.workers id = .waiting then .lock else state.workers id
        dispatcher := .returned } id .waiting) ?_ ⟨stopped, rfl, id, Function.update_self ..⟩
      simp [step, runWorker, waits]
  | _ => exact absurd trivial missed

theorem wakesAll_of_disabled {state : State κ n} {action : Action κ n}
    (disabled : state.step key action = none) : state.WakesAll action := by
  cases action with
  | dispatch =>
      intro place
      simp [step, dispatch, place] at disabled
  | _ => trivial

end State

section Stopping

variable [LinearOrder κ]

/-- A run, and everything its workers may still do after any part of it, leaves no
worker asleep exactly if the last notification never comes while a worker is
between reading `running` and going to sleep. -/
theorem noneAsleep_iff_wakes_all (key : Priority → Packet → κ) (n : Nat)
    (actions : List (Action κ n)) :
    TransitionSystem.ThroughoutFinished (State.step key) State.Continues
        (fun state => ¬ state.Asleep) (State.initial κ n) actions ↔
      TransitionSystem.Along (State.step key) State.WakesAll (State.initial κ n) actions :=
  TransitionSystem.throughoutFinished_iff_along State.step_roused State.Roused.not_asleep
    (by rintro state _ ⟨id, rfl⟩; exact trivial) State.wakesAll_of_disabled State.missed_sleeps
    State.initial_roused actions

end Stopping

/-- A worker reads `running`, the scheduler is stopped and the dispatcher returns,
and the worker goes to sleep. -/
def missedWakeup : List (Action Instant 1) :=
  let worker := Fin.last 0
  [.run worker, .run worker, .run worker, .stop, .dispatch, .dispatch, .run worker]

theorem worker_left_asleep :
    ¬ TransitionSystem.Throughout (State.step deadline) (fun state => ¬ state.Asleep)
      (State.initial Instant 1) missedWakeup := by
  decide +kernel

end EdfPipeline.Gedf
