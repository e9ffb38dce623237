import EdfPipeline.MultiWorker.Books

/-!
# Earliest deadline first within a worker

STEP 2 pops an earliest item and STEP 3 exchanges it only for an earlier one, so
a worker processes a packet no later than all it keeps. The guard window takes
any High packet, whatever its deadline; the history tells whether it did.
-/

set_option autoImplicit false

namespace EdfPipeline.MultiWorker

open EarliestFirst
open TransitionSystem (Past recorded)

/-- The item of STEP 5 and STEP 6. -/
def Pc.processing : Pc → Option ScheduledItem
  | .process scheduled | .busy scheduled _ | .complete scheduled => some scheduled
  | _ => none

/-- The next step of the worker is the replacement of the guard window. -/
def Pc.guardReplaces : Pc → Bool
  | .prepared (.guard ..) _ => true
  | _ => false

namespace State

def noteReplacement (id : WorkerId) (replaced : Bool) (entry : State × Action) : Bool :=
  match entry.2 with
  | .pop other _ => if other = id then false else replaced
  | .run other => if other = id then (entry.1.workers id).pc.guardReplaces || replaced else replaced
  | _ => replaced

/-- The guard window replaced the packet the worker selected last. -/
def guardReplaced (id : WorkerId) (past : Past State Action) : Bool :=
  past.foldl (noteReplacement id) false

/-- The processed item is due no later than anything in the heap, unless the
guard window replaced the selected one. -/
def LocalEdf (history : State × Past State Action) : Prop :=
  ∀ id scheduled, (history.1.workers id).pc.processing = some scheduled →
    guardReplaced id history.2 = false →
      ∀ item ∈ (history.1.workers id).heap, scheduled.deadline ≤ item.deadline

end State

/-- The selected item is due no later than anything in the heap. -/
def Worker.Ahead (worker : Worker) : Prop :=
  ∀ scheduled ∈ worker.pc.slot, ∀ item ∈ worker.heap, scheduled.deadline ≤ item.deadline

namespace Worker

theorem ahead_of_unselected {worker : Worker} (slot : worker.pc.slot = []) : worker.Ahead := by
  intro scheduled member
  rw [slot] at member
  cases member

theorem Ahead.of_same {worker changed : Worker} (ahead : worker.Ahead)
    (slot : changed.pc.slot = worker.pc.slot) (heap : changed.heap = worker.heap) :
    changed.Ahead := by
  intro scheduled member item queued
  rw [slot] at member
  rw [heap] at queued
  exact ahead scheduled member item queued

/-- What joins the heap is due no earlier than the selected item. -/
theorem Ahead.of_joined {worker changed : Worker} (ahead : worker.Ahead) {joining : ScheduledItem}
    (slot : changed.pc.slot = worker.pc.slot) (heap : changed.heap = joining :: worker.heap)
    (later : ∀ scheduled ∈ worker.pc.slot, scheduled.deadline ≤ joining.deadline) :
    changed.Ahead := by
  intro scheduled member item queued
  rw [slot] at member
  rw [heap] at queued
  rcases List.mem_cons.mp queued with rfl | old
  · exact later scheduled member
  · exact ahead scheduled member item old

/-- An earlier item may take over, with the displaced one back in the heap or gone. -/
theorem Ahead.of_displaced {worker changed : Worker} (ahead : worker.Ahead)
    {scheduled earlier : ScheduledItem} (selected : worker.pc.slot = [scheduled])
    (slot : changed.pc.slot = [earlier]) (sooner : earlier.deadline < scheduled.deadline)
    (heap : changed.heap = scheduled :: worker.heap ∨ changed.heap = worker.heap) :
    changed.Ahead := by
  have chosen : scheduled ∈ worker.pc.slot := selected ▸ List.mem_singleton_self scheduled
  have least (item : ScheduledItem) (old : item ∈ worker.heap) : earlier.deadline ≤ item.deadline :=
    sooner.le.trans (ahead scheduled chosen item old)
  intro other member item queued
  rw [slot] at member
  cases List.mem_singleton.mp member
  rcases heap with requeued | refused
  · rw [requeued] at queued
    rcases List.mem_cons.mp queued with rfl | old
    · exact sooner.le
    · exact least item old
  · rw [refused] at queued
    exact least item queued

end Worker

namespace State

theorem guardReplaced_step (id : WorkerId) (past : Past State Action) (state : State)
    (action : Action) : guardReplaced id (past ++ [(state, action)]) =
      noteReplacement id (guardReplaced id past) (state, action) := by
  rw [guardReplaced, List.foldl_append]
  rfl

theorem push_ahead {state : State} {id : WorkerId} {site : Site} {item : ScheduledItem}
    {accepted refused : Pc} (ahead : (state.workers id).Ahead)
    (place : (state.workers id).pc = .prepared site item) (resumes : Resumes site accepted)
    (resumes' : Resumes site refused)
    (later : ∀ scheduled ∈ site.slot, scheduled.deadline ≤ item.deadline) :
    ((state.push id item accepted refused).workers id).Ahead := by
  have selected : (state.workers id).pc.slot = site.slot := by
    rw [place]
    rfl
  by_cases full : (state.workers id).QuotaReached item.priority
  · rw [push_refused full, setWorker_self]
    exact ahead.of_same (resumes'.slot.trans selected.symm) rfl
  · rw [push_accepted full, setWorker_self]
    exact ahead.of_joined (resumes.slot.trans selected.symm) rfl (selected ▸ later)

theorem displace_ahead {state : State} {id : WorkerId} {scheduled item : ScheduledItem}
    {initial : Priority} {next : Pc} (ahead : (state.workers id).Ahead)
    (selected : (state.workers id).pc.slot = [scheduled]) (slot : next.slot = [item])
    (sooner : item.deadline < scheduled.deadline) :
    ((state.displace id scheduled initial next).workers id).Ahead := by
  by_cases full : (state.workers id).QuotaReached scheduled.priority
  · rw [displace_refused full, setWorker_self]
    exact ahead.of_displaced selected slot sooner (.inr rfl)
  · rw [displace_accepted full, setWorker_self]
    exact ahead.of_displaced selected slot sooner (.inl rfl)

theorem moves_ahead {state next : State} {id : WorkerId} (moves : Moves state id next)
    (unguarded : (state.workers id).pc.guardReplaces = false) (ahead : (state.workers id).Ahead) :
    (next.workers id).Ahead := by
  cases moves with
  | readTotalLimit place =>
      rw [setWorker_self]
      exact Worker.ahead_of_unselected rfl
  | readPriorityLimit priority rest place =>
      rw [setWorker_self]
      exact Worker.ahead_of_unselected rfl
  | storeBacklog place =>
      rw [setWorker_self]
      exact Worker.ahead_of_unselected rfl
  | goto pc slot hand hand' unnumbered unnumbered' =>
      rw [goto_self]
      exact ahead.of_same slot rfl
  | spin hand => exact ahead
  | receive site packet remaining received room slot hand unnumbered =>
      rw [receive, goto_self]
      exact ahead.of_same slot rfl
  | prepare site packet ticket place =>
      rw [prepare, goto_self]
      exact ahead.of_same (by rw [place]; rfl) rfl
  | push site item accepted refused place keeps resumes resumes' =>
      apply push_ahead ahead place resumes resumes'
      intro scheduled member
      cases site with
      | drain priority rest => cases member
      | poll current initial =>
          cases List.mem_singleton.mp member
          simp only [Worker.displaced, place] at keeps
          split at keeps
          · cases keeps
          · rename_i later
            exact Nat.le_of_not_lt later
      | guard current initial => simp [Worker.displaced, place] at keeps
  | displace site scheduled item initial next place displaced sited slot hand unnumbered =>
      have selected : (state.workers id).pc.slot = [scheduled] := by
        rw [place]
        exact sited
      apply displace_ahead ahead selected slot
      cases site with
      | drain priority rest => cases sited
      | poll current initial' =>
          simp only [Worker.displaced, place] at displaced
          split at displaced
          · rename_i sooner
            cases displaced
            exact sooner
          · cases displaced
      | guard current initial' =>
          rw [place] at unguarded
          cases unguarded
  | observe scheduled start place =>
      rw [goto_self]
      exact ahead.of_same (by rw [place]; rfl) rfl

/-- The invariant of the run: ahead, unless the guard window has replaced. -/
def KeepsAhead (history : State × Past State Action) : Prop :=
  ∀ id, guardReplaced id history.2 = false → (history.1.workers id).Ahead

theorem KeepsAhead.localEdf {history : State × Past State Action} (keeps : KeepsAhead history) :
    LocalEdf history := by
  intro id scheduled processing unguarded
  apply keeps id unguarded
  cases place : (history.1.workers id).pc <;> rw [place] at processing <;> cases processing
  all_goals exact List.mem_singleton_self _

theorem step_keepsAhead {history next : State × Past State Action} {action : Action}
    (keeps : KeepsAhead history) (stepped : recorded State.step history action = some next) :
    KeepsAhead next := by
  obtain ⟨after, later⟩ := next
  obtain ⟨taken, rfl⟩ := TransitionSystem.recorded_eq_some.mp stepped
  intro id unguarded
  rw [guardReplaced_step] at unguarded
  cases action with
  | arrive priority packet =>
      cases taken
      exact keeps id unguarded
  | disconnect priority =>
      cases taken
      exact keeps id unguarded
  | tick elapsed =>
      cases taken
      exact keeps id unguarded
  | store store =>
      simp only [step] at taken
      split at taken
      · cases taken
        exact keeps id unguarded
      · cases taken
  | run runner =>
      have moves := runWorker_moves taken
      by_cases same : runner = id
      · subst same
        simp only [noteReplacement, ↓reduceIte, Bool.or_eq_false_iff] at unguarded
        exact moves_ahead moves unguarded.1 (keeps runner unguarded.2)
      · simp only [noteReplacement, if_neg same] at unguarded
        rw [moves_others moves fun back => same back.symm]
        exact keeps id unguarded
  | pop runner item =>
      simp only [step, popWorker] at taken
      split at taken
      · rename_i selected
        cases taken
        by_cases same : runner = id
        · subst same
          rw [setWorker_self]
          intro scheduled member other queued
          cases List.mem_singleton.mp member
          exact selected.2.2 other (List.mem_of_mem_erase queued)
        · simp only [noteReplacement, if_neg same] at unguarded
          rw [setWorker_workers, Function.update_of_ne fun back => same back.symm]
          exact keeps id unguarded
      · cases taken
  | complete runner room =>
      simp only [step, completeWorker] at taken
      split at taken
      · cases taken
        by_cases same : id = runner
        · subst same
          rw [goto_self]
          exact Worker.ahead_of_unselected rfl
        · rw [State.goto, setWorker_workers, Function.update_of_ne same]
          exact keeps id unguarded
      · cases taken

end State

theorem worker_processes_earliest (actions : List Action) :
    TransitionSystem.Throughout (recorded State.step) State.LocalEdf (State.initial, []) actions := by
  refine TransitionSystem.throughout_invariant State.step_keepsAhead State.KeepsAhead.localEdf ?_
    actions
  intro id _
  exact Worker.ahead_of_unselected rfl

end EdfPipeline.MultiWorker
