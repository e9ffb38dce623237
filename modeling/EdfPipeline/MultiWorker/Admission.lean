import EdfPipeline.MultiWorker.Books

/-!
# What a worker knows of its own heap

The local counts are those of the heap, and between the quota test and the push
that follows it nothing moves, so a freshly received packet is always admitted.
Only the requeue of a displaced item can be refused.
-/

set_option autoImplicit false

namespace EdfPipeline.MultiWorker

open EarliestFirst

/-- The site a packet is being admitted at. -/
def Pc.site : Pc → Option Site
  | .received site _ _ | .prepared site _ => some site
  | _ => none

theorem Pc.site_none {pc : Pc} (hand : pc.hand = []) (unnumbered : pc.unnumbered = []) :
    pc.site = none := by
  cases pc with
  | received site packet ticket => cases unnumbered
  | prepared site item => cases hand
  | _ => rfl

def Worker.heapCount (worker : Worker) (priority : Priority) : Nat :=
  worker.heap.countP fun item => item.priority = priority

structure Worker.Sound (worker : Worker) : Prop where
  counts : ∀ priority, worker.counts priority = worker.heapCount priority
  total : worker.totalCount = worker.heap.length
  words : ∀ priority, worker.perPriorityLimit priority < wordBound
  shared : ∀ priority, worker.sharedPriorityCounters priority < wordBound
  admitting : ∀ site ∈ worker.pc.site, ¬ worker.QuotaReached site.priority
  prepared : ∀ site item, worker.pc = .prepared site item → item.priority = site.priority

/-- The quotas the controller holds fit a machine word. -/
def AdaptiveController.Fits (controller : AdaptiveController) : Prop :=
  ∀ id priority, controller.workerPriorityLimits id priority < wordBound

structure State.Sound (state : State) : Prop where
  workers : ∀ id, (state.workers id).Sound
  controller : state.controller.Fits

namespace Worker

theorem displaced_none {worker : Worker} (hand : worker.pc.hand = []) :
    worker.displaced = none := by
  cases place : worker.pc with
  | prepared site item =>
      rw [place] at hand
      cases hand
  | _ => simp only [displaced, place]

/-- Only a packet admitted in STEP 3 or STEP 4 displaces another. -/
theorem displaced_some {worker : Worker} {scheduled : ScheduledItem} {initial : Priority}
    (displaced : worker.displaced = some (scheduled, initial)) :
    ∃ site item, worker.pc = .prepared site item ∧ site.priority = .high := by
  unfold Worker.displaced at displaced
  split at displaced
  · rename_i scheduled initial item place
    exact ⟨_, item, place, rfl⟩
  · rename_i scheduled initial item place
    exact ⟨_, item, place, rfl⟩
  · cases displaced

theorem set_mod_lt {table : PriorityTable Nat} (fits : ∀ priority, table priority < wordBound)
    (priority : Priority) (value : Nat) (other : Priority) :
    table.set priority (value % wordBound) other < wordBound := by
  rw [PriorityTable.set_apply]
  split
  · exact Nat.mod_lt _ (Nat.two_pow_pos 64)
  · exact fits other

theorem heapCount_cons (worker : Worker) (item : ScheduledItem) (priority : Priority) :
    { worker with heap := item :: worker.heap }.heapCount priority =
      worker.heapCount priority + if item.priority = priority then 1 else 0 := by
  simp [heapCount, List.countP_cons]

theorem heapCount_pushed (worker : Worker) (item : ScheduledItem) (priority : Priority) :
    (worker.pushed item).heapCount priority =
      worker.heapCount priority + if item.priority = priority then 1 else 0 :=
  heapCount_cons worker item priority

theorem heapCount_popped {worker : Worker} {item : ScheduledItem}
    (earliest : Earliest ScheduledItem.deadline item worker.heap) (priority : Priority) :
    (worker.popped item).heapCount priority + (if item.priority = priority then 1 else 0) =
      worker.heapCount priority := by
  have perm := earliest.perm.countP_eq fun other => decide (other.priority = priority)
  rw [List.countP_cons] at perm
  simpa [heapCount, popped, fetchSub] using perm.symm

theorem pushed_counts {worker : Worker} (sound : worker.Sound) (item : ScheduledItem)
    (priority : Priority) :
    (worker.pushed item).counts priority = (worker.pushed item).heapCount priority := by
  rw [heapCount_pushed, ← sound.counts priority]
  by_cases same : priority = item.priority
  · subst same
    simp [pushed]
  · rw [if_neg fun back => same back.symm, Nat.add_zero]
    simp [pushed, same]

theorem popped_counts {worker : Worker} (sound : worker.Sound) {item : ScheduledItem}
    (earliest : Earliest ScheduledItem.deadline item worker.heap) (priority : Priority) :
    (worker.popped item).counts priority = (worker.popped item).heapCount priority := by
  have moved := heapCount_popped earliest priority
  rw [← sound.counts priority] at moved
  by_cases same : priority = item.priority
  · subst same
    have taken : (worker.popped item).counts item.priority = worker.counts item.priority - 1 := by
      simp [popped, fetchSub]
    rw [if_pos rfl] at moved
    omega
  · have kept : (worker.popped item).counts priority = worker.counts priority := by
      simp [popped, fetchSub, same]
    rw [if_neg fun back => same back.symm] at moved
    omega

theorem Sound.goto {worker : Worker} (sound : worker.Sound) {pc : Pc} (site : pc.site = none) :
    (worker.goto pc).Sound where
  counts := sound.counts
  total := sound.total
  words := sound.words
  shared := sound.shared
  admitting := by simp [Worker.goto, site]
  prepared := by
    intro there item place
    have moved : pc = .prepared there item := place
    rw [moved] at site
    cases site

/-- A displaced item is requeued exactly if its class has quota left: the total
was tested just before. -/
theorem Sound.requeue_room {worker : Worker} (sound : worker.Sound) {scheduled : ScheduledItem}
    {initial : Priority} (displaced : worker.displaced = some (scheduled, initial)) :
    ¬ worker.QuotaReached scheduled.priority ↔
      worker.counts scheduled.priority < worker.perPriorityLimit scheduled.priority := by
  obtain ⟨site, item, place, high⟩ := displaced_some displaced
  have tested := sound.admitting site (by rw [place]; rfl)
  simp only [QuotaReached, not_or, Nat.not_le] at tested ⊢
  exact and_iff_left tested.2

theorem Sound.fetchAdd {worker : Worker} (sound : worker.Sound) (priority : Priority) :
    (worker.fetchAdd priority).Sound :=
  { sound with shared := set_mod_lt sound.shared priority _ }

/-- A push leaves the worker sound once it has left the admission. -/
theorem Sound.pushed_goto {worker : Worker} (sound : worker.Sound) (item : ScheduledItem)
    (priority : Priority) {pc : Pc} (site : pc.site = none) :
    (((worker.pushed item).fetchAdd priority).goto pc).Sound where
  counts := pushed_counts sound item
  total := by
    simp only [Worker.goto, Worker.fetchAdd, pushed, List.length_cons, sound.total]
  words := sound.words
  shared := set_mod_lt sound.shared priority _
  admitting := by simp [Worker.goto, site]
  prepared := by
    intro there other place
    have moved : pc = .prepared there other := place
    rw [moved] at site
    cases site

theorem Sound.popped_goto {worker : Worker} (sound : worker.Sound) {item : ScheduledItem}
    (earliest : Earliest ScheduledItem.deadline item worker.heap) {pc : Pc}
    (site : pc.site = none) : ((worker.popped item).goto pc).Sound where
  counts := popped_counts sound earliest
  total := by
    simp only [Worker.goto, popped, Worker.fetchSub, List.length_erase_of_mem earliest.1,
      sound.total]
  words := sound.words
  shared := set_mod_lt sound.shared item.priority _
  admitting := by simp [Worker.goto, site]
  prepared := by
    intro there other place
    have moved : pc = .prepared there other := place
    rw [moved] at site
    cases site

end Worker

namespace State

theorem Resumes.site {site : Site} {pc : Pc} (resumes : Resumes site pc) : pc.site = none :=
  Pc.site_none resumes.hand resumes.unnumbered

theorem Sound.change {state next : State} (sound : state.Sound) {id : WorkerId} {worker : Worker}
    (workers : next.workers = Function.update state.workers id worker) (changed : worker.Sound)
    (controller : next.controller.Fits) : next.Sound where
  workers := by
    intro other
    rw [workers]
    by_cases here : other = id
    · rw [here, Function.update_self]
      exact changed
    · rw [Function.update_of_ne here]
      exact sound.workers other
  controller := controller

theorem Sound.setWorker {state : State} (sound : state.Sound) {id : WorkerId} {worker : Worker}
    (changed : worker.Sound) : (state.setWorker id worker).Sound :=
  sound.change rfl changed sound.controller

/-- The item a worker is about to push was received with the quota open. -/
theorem Sound.admits {state : State} (sound : state.Sound) {id : WorkerId} {site : Site}
    {item : ScheduledItem} (place : (state.workers id).pc = .prepared site item) :
    ¬ (state.workers id).QuotaReached item.priority := by
  rw [(sound.workers id).prepared site item place]
  exact (sound.workers id).admitting site (by rw [place]; rfl)

theorem receive_sound {state : State} (sound : state.Sound) {id : WorkerId} {site : Site}
    {packet : Packet} {remaining : Channel Packet}
    (room : ¬ (state.workers id).QuotaReached site.priority) :
    (state.receive id site packet remaining).Sound := by
  have before := sound.workers id
  refine sound.change rfl ⟨before.counts, before.total, before.words, before.shared, ?_, ?_⟩ sound.controller
  · intro there same
    cases same
    exact room
  · intro there item place
    cases place

theorem prepare_sound {state : State} (sound : state.Sound) {id : WorkerId} {site : Site}
    {packet : Packet} {ticket : Nat}
    (place : (state.workers id).pc = .received site packet ticket) :
    (state.prepare id site packet).Sound := by
  have before := sound.workers id
  refine sound.change rfl ⟨before.counts, before.total, before.words, before.shared, ?_, ?_⟩ sound.controller
  · intro there same
    cases same
    exact before.admitting site (by rw [place]; rfl)
  · intro there item same
    cases same
    rfl

theorem displace_sound {state : State} (sound : state.Sound) {id : WorkerId}
    {scheduled : ScheduledItem} {initial : Priority} {next : Pc} (site : next.site = none) :
    (state.displace id scheduled initial next).Sound := by
  by_cases full : (state.workers id).QuotaReached scheduled.priority
  · rw [displace_refused full]
    exact sound.change rfl (((sound.workers id).fetchAdd initial).goto site) sound.controller
  · rw [displace_accepted full]
    exact sound.setWorker ((sound.workers id).pushed_goto scheduled initial site)

theorem moves_sound {state next : State} {id : WorkerId} (sound : state.Sound)
    (moves : Moves state id next) : next.Sound := by
  have before := sound.workers id
  cases moves with
  | readTotalLimit place =>
      exact sound.setWorker ⟨before.counts, before.total, before.words, before.shared,
        by simp [Pc.site], by simp⟩
  | readPriorityLimit priority rest place =>
      refine sound.setWorker ⟨before.counts, before.total, ?_, before.shared, by simp [Pc.site],
        by simp⟩
      intro other
      change (state.workers id).perPriorityLimit.set priority _ other < wordBound
      rw [PriorityTable.set_apply]
      split
      · exact sound.controller id priority
      · exact before.words other
  | storeBacklog place =>
      exact sound.setWorker ⟨before.counts, before.total, before.words, before.shared,
        by simp [Pc.site], by simp⟩
  | goto pc slot hand hand' unnumbered unnumbered' =>
      exact sound.setWorker (before.goto (Pc.site_none hand unnumbered))
  | spin hand => exact sound
  | receive site packet remaining received room slot hand unnumbered =>
      exact receive_sound sound room
  | prepare site packet ticket place => exact prepare_sound sound place
  | push site item accepted refused place keeps resumes resumes' =>
      rw [push_accepted (sound.admits place)]
      exact sound.setWorker (before.pushed_goto item item.priority resumes.site)
  | displace site scheduled item initial next place displaced sited slot hand unnumbered =>
      exact displace_sound sound (Pc.site_none hand unnumbered)
  | observe scheduled start place =>
      exact sound.change rfl (before.goto rfl) sound.controller

end State

theorem AdaptiveController.new_fits : AdaptiveController.new.Fits := by
  intro id priority
  revert id priority
  decide

theorem AdaptiveController.Fits.apply {controller : AdaptiveController}
    (fits : controller.Fits) {store : Store} (stored : store.Fits) :
    (controller.apply store).Fits := by
  cases store with
  | totalLimit worker value => exact fits
  | priorityLimit worker priority value =>
      intro id other
      change Function.update controller.workerPriorityLimits worker
        ((controller.workerPriorityLimits worker).set priority value) id other < wordBound
      by_cases here : id = worker
      · subst here
        rw [Function.update_self, PriorityTable.set_apply]
        split
        · exact stored
        · exact fits id other
      · rw [Function.update_of_ne here]
        exact fits id other
  | guardSlice micros => exact fits
  | guardThreshold priority micros => exact fits

namespace State

theorem initial_sound : State.initial.Sound where
  workers := fun _ => {
    counts := fun _ => rfl
    total := rfl
    words := fun _ => Nat.two_pow_pos 64
    shared := fun _ => Nat.two_pow_pos 64
    admitting := by simp [State.initial, Worker.initial, Pc.site]
    prepared := by simp [State.initial, Worker.initial] }
  controller := AdaptiveController.new_fits

theorem step_sound {state next : State} {action : Action} (sound : state.Sound)
    (stepped : state.step action = some next) : next.Sound := by
  cases action with
  | arrive priority packet =>
      cases stepped
      exact ⟨sound.workers, sound.controller⟩
  | disconnect priority =>
      cases stepped
      exact ⟨sound.workers, sound.controller⟩
  | tick elapsed =>
      cases stepped
      exact ⟨sound.workers, sound.controller⟩
  | store store =>
      simp only [step] at stepped
      split at stepped
      · rename_i fits
        cases stepped
        exact ⟨sound.workers, sound.controller.apply fits⟩
      · cases stepped
  | run id => exact moves_sound sound (runWorker_moves stepped)
  | pop id item =>
      simp only [step, popWorker] at stepped
      split at stepped
      · rename_i enabled
        cases stepped
        exact sound.setWorker ((sound.workers id).popped_goto enabled.2 rfl)
      · cases stepped
  | complete id room =>
      simp only [step, completeWorker] at stepped
      split at stepped
      · cases stepped
        exact sound.change rfl ((sound.workers id).goto rfl) sound.controller
      · cases stepped

end State

end EdfPipeline.MultiWorker
