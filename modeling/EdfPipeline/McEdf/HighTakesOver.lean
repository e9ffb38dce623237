import EdfPipeline.McEdf.ClassPreservation

/-!
# High tasks that arrive during a wait

A worker that receives a High task while it holds back another one puts both on
its heap and starts over. Which of them it pops next is up to their virtual
deadlines, and an old task with a large budget may have an earlier one than a
High task that has just arrived.
-/

set_option autoImplicit false

namespace EdfPipeline.McEdf

open EarliestFirst TransitionSystem

/-- The channels whose EDFs hold tasks back. -/
def lowerChannels : List EdfChannel := [.medium, .low]

/-- The task a worker is about to process. -/
def WorkerPc.starting : WorkerPc → Option EDFTask
  | .process task => some task
  | _ => none

/-- The worker holds a task back. -/
def WorkerPc.holdsBack : WorkerPc → Bool
  | .timeout _ | .wait _ _ => true
  | _ => false

namespace State

def notePutBack (channel : EdfChannel) (count : Nat) (state : State) : Action → Nat
  | .run other =>
      if other = channel then
        match (state.workers channel).pc with
        | .wait _ _ => if (state.edfInputs channel .high).queue = [] then count else count + 1
        | .process _ => 0
        | _ => count
      else count
  | _ => count

/-- How often a worker has put a task back since it last began to process one. -/
def putBacks (channel : EdfChannel) (past : Past State Action) : Nat :=
  past.foldl (fun count entry => notePutBack channel count entry.1 entry.2) 0

theorem putBacks_step (channel : EdfChannel) (past : Past State Action) (state : State)
    (action : Action) : putBacks channel (past ++ [(state, action)]) =
      notePutBack channel (putBacks channel past) state action := by
  rw [putBacks, List.foldl_append]
  rfl

/-- After a task was put back the next one to be processed is High, and nothing is
put back before that. -/
def HighTakesOver (history : State × Past State Action) : Prop :=
  ∀ channel ∈ lowerChannels, putBacks channel history.2 ≤ 1 ∧
    ∀ task ∈ (history.1.workers channel).pc.starting, 0 < putBacks channel history.2 →
      task.priority = .high

instance (history : State × Past State Action) : Decidable (HighTakesOver history) :=
  inferInstanceAs (Decidable (∀ channel ∈ lowerChannels, _ ∧ ∀ task ∈ WorkerPc.starting _, _ → _))

end State

/-- Some High task has an earlier virtual deadline than all tasks of other classes. -/
def EdfWorker.HighLeads (worker : EdfWorker) : Prop :=
  ∃ task ∈ worker.heap, task.priority = .high ∧
    ∀ other ∈ worker.heap, other.priority ≠ .high → task.virtualDeadline < other.virtualDeadline

instance (worker : EdfWorker) : Decidable worker.HighLeads :=
  inferInstanceAs (Decidable (∃ task ∈ worker.heap, _ ∧ ∀ other ∈ worker.heap, _ → _))

/-- A worker that has put a task back pops while a High task leads. -/
def State.PopsHigh (history : State × Past State Action) : Action → Prop
  | .pop channel _ => 0 < putBacks channel history.2 → (history.1.workers channel).HighLeads
  | _ => True

instance (history : State × Past State Action) (action : Action) :
    Decidable (State.PopsHigh history action) :=
  match action with
  | .pop _ _ => inferInstanceAs (Decidable (_ → _))
  | .arrive _ | .disconnect _ | .tick _ | .stop | .dispatch | .run _ | .await _ _ | .reorder
  | .forward _ => inferInstanceAs (Decidable True)

/-! ## Who is popped -/

theorem EdfWorker.HighLeads.pops {worker : EdfWorker} {task : EDFTask} (leads : worker.HighLeads)
    (earliest : Earliest EDFTask.virtualDeadline task worker.heap) : task.priority = .high := by
  obtain ⟨leader, queued, _, first⟩ := leads
  by_contra lower
  have behind := first task earliest.1 lower
  exact absurd (earliest.2 leader queued) behind.not_ge

/-! ## One worker -/

/-- What is known of a worker that has put tasks back this often since it last
began to process one. -/
structure EdfWorker.Yields (worker : EdfWorker) (putBacks : Nat) : Prop where
  heaped : worker.highQueue = none
  once : putBacks ≤ 1
  fresh : worker.pc.holdsBack → putBacks = 0
  starting : ∀ task ∈ worker.pc.starting, 0 < putBacks → task.priority = .high

theorem EdfWorker.Yields.goto {worker : EdfWorker} {putBacks : Nat} (yields : worker.Yields putBacks)
    {pc : WorkerPc} (free : pc.holdsBack = false) (idle : pc.starting = none) :
    (worker.goto pc).Yields putBacks where
  heaped := yields.heaped
  once := yields.once
  fresh holds := by
    rw [EdfWorker.goto, free] at holds
    cases holds
  starting task starts := by
    rw [EdfWorker.goto, idle] at starts
    cases starts

theorem EdfWorker.enter_free (worker : EdfWorker) :
    worker.enter.holdsBack = false ∧ worker.enter.starting = none := by
  unfold EdfWorker.enter
  split <;> exact ⟨rfl, rfl⟩

theorem EdfWorker.Yields.push {worker : EdfWorker} {putBacks count : Nat}
    (yields : worker.Yields putBacks) (once : count ≤ 1) (tasks : List EDFTask) {pc : WorkerPc}
    (free : pc.holdsBack = false) (idle : pc.starting = none) :
    ((worker.push tasks).goto pc).Yields count := by
  have heaped := yields.heaped
  refine ⟨?_, once, ?_, ?_⟩
  · simp only [EdfWorker.push, heaped, EdfWorker.goto]
  · intro holds
    rw [EdfWorker.goto, free] at holds
    cases holds
  · intro task starts
    rw [EdfWorker.goto, idle] at starts
    cases starts

namespace State

variable {state next : State} {channel : EdfChannel} {count : Nat}

theorem RunMove.yields (move : RunMove state channel next)
    (yields : (state.workers channel).Yields count) :
    (next.workers channel).Yields (notePutBack channel count state (.run channel)) := by
  have heaped := yields.heaped
  cases move with
  | top place =>
      simp only [notePutBack, if_true, place, setWorker_workers]
      split
      · exact yields.goto (EdfWorker.enter_free _).1 (EdfWorker.enter_free _).2
      · exact yields.goto rfl rfl
  | receiveHigh place received =>
      simp only [notePutBack, if_true, place, setWorker_workers]
      exact yields.push yields.once _ rfl rfl
  | lowerDone place =>
      simp only [notePutBack, if_true, place, setWorker_workers]
      exact ⟨heaped, yields.once, fun holds => (by cases holds), fun _ starts => by cases starts⟩
  | popFifo place queue =>
      rw [heaped] at queue
      cases queue
  | putBack place received =>
      have none_yet : count = 0 := yields.fresh (by rw [place]; rfl)
      have filled : (state.edfInputs channel .high).queue ≠ [] := by
        rw [(Channel.tryRecv_ok received).1]
        exact List.cons_ne_nil _ _
      simp only [notePutBack, if_true, place, setWorker_workers, if_neg filled, none_yet]
      exact yields.push le_rfl _ rfl rfl
  | proceed place failed due =>
      have none_yet : count = 0 := yields.fresh (by rw [place]; rfl)
      simp only [notePutBack, if_true, place, setWorker_workers,
        if_pos (Channel.tryRecv_error failed)]
      refine ⟨heaped, yields.once, fun holds => (by cases holds), ?_⟩
      intro _ _ some_yet
      exact absurd some_yet (by omega)
  | process place =>
      simp only [notePutBack, if_true, place, setWorker_workers]
      exact ⟨heaped, Nat.zero_le 1, fun _ => rfl, fun _ starts => by cases starts⟩
  | spin place unfinished =>
      simp only [notePutBack, if_true, place]
      exact yields
  | noHigh place | receiveLower place | skipLower place | idle place | done place | output place =>
      simp only [notePutBack, if_true, place, setWorker_workers]
      exact yields.goto rfl rfl

theorem popWorker_yields {task : EDFTask} (yields : (state.workers channel).Yields count)
    (leads : 0 < count → (state.workers channel).HighLeads)
    (stepped : state.popWorker channel task = some next) : (next.workers channel).Yields count := by
  simp only [popWorker] at stepped
  split at stepped
  · rename_i enabled
    obtain ⟨_, heaped, earliest⟩ := enabled
    cases stepped
    rw [setWorker_workers]
    by_cases high : task.priority = .high
    · have starts : EdfWorker.afterPop task = .process task := if_pos high
      rw [starts]
      refine ⟨heaped, yields.once, fun holds => (by cases holds), ?_⟩
      intro other starting _
      cases starting
      exact high
    · have none_yet : count = 0 := by
        by_contra some_yet
        exact high ((leads (Nat.pos_of_ne_zero some_yet)).pops earliest)
      have held : EdfWorker.afterPop task = .timeout task := if_neg high
      rw [held]
      exact ⟨heaped, yields.once, fun _ => none_yet, fun _ starts => by cases starts⟩
  · cases stepped

theorem awaitWorker_yields {timeout : Duration} (yields : (state.workers channel).Yields count)
    (stepped : state.awaitWorker channel timeout = some next) :
    (next.workers channel).Yields count := by
  simp only [awaitWorker] at stepped
  split at stepped
  · rename_i place
    split at stepped
    · cases stepped
      rw [setWorker_workers]
      have none_yet : count = 0 := yields.fresh (by rw [place]; rfl)
      exact ⟨yields.heaped, yields.once, fun _ => none_yet, fun _ starts => by cases starts⟩
    · cases stepped
  · cases stepped

/-! ## All workers -/

theorem WorkerMove.others {other : EdfChannel} (move : WorkerMove state other next)
    (elsewhere : channel ≠ other) : next.workers channel = state.workers channel := by
  cases move <;> exact Function.update_of_ne elsewhere ..

/-- A step keeps what is known of a worker, whoever takes it. -/
theorem step_yields {action : Action} {past : Past State Action}
    (yields : (state.workers channel).Yields (putBacks channel past))
    (popsHigh : PopsHigh (state, past) action) (stepped : state.step action = some next) :
    (next.workers channel).Yields (putBacks channel (past ++ [(state, action)])) := by
  rw [putBacks_step]
  have idle (same : next.workers channel = state.workers channel)
      (quiet : notePutBack channel (putBacks channel past) state action = putBacks channel past) :
      (next.workers channel).Yields (notePutBack channel (putBacks channel past) state action) := by
    rwa [same, quiet]
  cases action with
  | arrive packet =>
      simp only [step] at stepped
      split at stepped <;> cases stepped
      exact yields
  | disconnect priority | tick elapsed | stop =>
      cases stepped
      exact yields
  | dispatch =>
      obtain ⟨_, _, _, _, rfl⟩ := (dispatch_moves stepped).frame
      exact idle rfl rfl
  | reorder =>
      obtain ⟨_, _, _, rfl⟩ := (runReorder_moves stepped).frame
      exact idle rfl rfl
  | forward room =>
      obtain ⟨_, _, _, rfl⟩ := (forwardReorder_moves stepped).frame
      exact idle rfl rfl
  | run other =>
      by_cases here : other = channel
      · subst here
        exact (runWorker_moves stepped).yields yields
      · exact idle ((runWorker_move stepped).others (Ne.symm here)) (if_neg here)
  | pop other task =>
      by_cases here : other = channel
      · subst here
        exact popWorker_yields yields popsHigh stepped
      · exact idle ((popWorker_move stepped).others (Ne.symm here)) rfl
  | await other timeout =>
      by_cases here : other = channel
      · subst here
        exact awaitWorker_yields yields stepped
      · exact idle ((awaitWorker_move stepped).others (Ne.symm here)) rfl

abbrev AllYield (history : State × Past State Action) : Prop :=
  ∀ channel ∈ lowerChannels, (history.1.workers channel).Yields (putBacks channel history.2)

theorem AllYield.takesOver {history : State × Past State Action} (yield : AllYield history) :
    HighTakesOver history :=
  fun channel lower => ⟨(yield channel lower).once, (yield channel lower).starting⟩

theorem step_allYield {history next : State × Past State Action} {action : Action}
    (yield : AllYield history) (popsHigh : PopsHigh history action)
    (stepped : recorded step history action = some next) : AllYield next := by
  obtain ⟨after, later⟩ := next
  obtain ⟨moved, rfl⟩ := recorded_eq_some.mp stepped
  intro channel lower
  exact step_yields (yield channel lower) popsHigh moved

theorem initial_allYield : AllYield (initial, []) := by
  intro channel lower
  simp only [lowerChannels, List.mem_cons, List.not_mem_nil, or_false] at lower
  rcases lower with rfl | rfl
  all_goals exact ⟨rfl, Nat.zero_le 1, fun _ => rfl, fun _ starts => by cases starts⟩

end State

/-- In a run in which a worker that has put a task back only pops while a High task
leads, High tasks take over. -/
theorem highTakesOver_of_popsHigh {actions : List Action}
    (popsHigh : Along (recorded State.step) State.PopsHigh (State.initial, []) actions) :
    Throughout (recorded State.step) State.HighTakesOver (State.initial, []) actions :=
  throughout_guarded State.step_allYield State.AllYield.takesOver State.initial_allYield popsHigh

/-! ## A held-back Medium task and a High one

The first High packet goes to the EDF of its class. The second one goes to the
Medium EDF, which holds back a Medium task whose virtual deadline is at 5 ms.
-/

def heldMedium : EDFTask := .of .medium (Packet.fromBuffer 0 0 .medium [0] (Duration.fromMillis 10))

def highAt (id micros : Nat) : EDFTask :=
  .of .high (Packet.fromBuffer id (Duration.fromMicros micros) .high [0] (Duration.fromMillis 1))

def putBackRun (micros : Nat) : List Action :=
  .arrive heldMedium.packet :: dispatchLower ++ .tick (Duration.fromMicros micros) ::
    .arrive (highAt 1 micros).packet :: dispatchHigh ++ List.replicate 7 (.run .medium) ++
    [.pop .medium heldMedium, .await .medium maxTimeout, .arrive (highAt 2 micros).packet] ++
    dispatchHigh ++ List.replicate 7 (.run .medium)

def earlyHighRun : List Action := putBackRun 4900 ++ [.pop .medium (highAt 2 4900)]

def lateHighRun : List Action :=
  putBackRun 4990 ++
    [.pop .medium heldMedium, .await .medium maxTimeout, .tick maxTimeout, .run .medium]

theorem early_high_takes_over :
    Along (recorded State.step) State.PopsHigh (State.initial, []) earlyHighRun ∧
      Throughout (recorded State.step) State.HighTakesOver (State.initial, []) earlyHighRun ∧
      (TransitionSystem.run (recorded State.step) (State.initial, []) earlyHighRun).map
          (fun history => (State.putBacks .medium history.2, (history.1.workers .medium).pc)) =
        some (1, .process (highAt 2 4900)) :=
  ⟨by decide +kernel, highTakesOver_of_popsHigh (by decide +kernel), by decide +kernel⟩

/-- The virtual deadline of the High task is at 5.015 ms. -/
theorem medium_pushes_ahead :
    ¬ Throughout (recorded State.step) State.HighTakesOver (State.initial, []) lateHighRun := by
  decide +kernel

end EdfPipeline.McEdf
