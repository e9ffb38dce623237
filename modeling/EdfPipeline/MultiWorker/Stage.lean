import EdfPipeline.MultiWorker.Delivery
import EdfPipeline.Pipeline.Stage

/-!
# The multi-worker scheduler as a stage

The three workers read `running` at the top of their loops. Packets can be lost in
two ways: a refused push drops the packet it was given, and the heap of a worker
is a local of its thread, dropped with what is in it when the thread ends.
-/

set_option autoImplicit false

namespace EdfPipeline.MultiWorker

open Ledger

namespace SequenceTracker

theorem emitConsecutive_grown (room : Nat → Bool) (fuel nextEmit : Nat)
    (pending : ReorderBuffer.Pending Packet) (output : OutputQueue) :
    output.log <+: (emitConsecutive room fuel nextEmit pending output).2.log := by
  induction fuel generalizing nextEmit pending output with
  | zero => exact List.prefix_refl _
  | succ fuel ih =>
      unfold emitConsecutive
      split
      · exact List.prefix_refl _
      · exact (output.grown_trySend room _).trans (ih _ _ _)

theorem complete_grown (tracker : SequenceTracker) (sequence : Nat) (packet : Packet)
    (room : Nat → Bool) (output : OutputQueue) :
    output.log <+: (tracker.complete sequence packet room output).2.log := by
  unfold complete
  split
  · exact (output.grown_trySend room packet).trans (emitConsecutive_grown room _ _ _ _)
  · exact List.prefix_refl _

end SequenceTracker

theorem CompletionRouter.complete_grown (router : CompletionRouter) (workItem : WorkItem)
    (room : Nat → Bool) :
    Grown router.outputQueues (router.complete workItem room).outputQueues := by
  intro priority
  by_cases same : priority = workItem.priority
  · subst same
    simp only [CompletionRouter.complete, PriorityTable.set_self]
    exact SequenceTracker.complete_grown ..
  · simp only [CompletionRouter.complete, PriorityTable.set_other same]
    exact List.prefix_refl _

/-- The three workers. -/
abbrev Threads : Type := Loop State

def wiring : LoopWiring State Action where
  arrive priority packet := if packet.priority = priority then some (.arrive priority packet) else none
  tick := .tick
  own
    | .store _ | .run _ | .pop _ _ | .complete _ _ => true
    | .arrive _ _ | .disconnect _ | .tick _ => false
  begins
    | state, .run id => (state.workers id).pc = .top
    | _, _ => false

/-- Where a packet that was received and not handed over is, or that a push dropped it. -/
inductive Whereabouts where
  | at (priority : Priority) (place : Place)
  | lost (priority : Priority)
  deriving DecidableEq

def Place.inside : Finset Place := Finset.univ.filter fun place => place ≠ .sent ∧ place ≠ .dropped

namespace State

def ends (state : State) : Ends where
  clock := state.clock
  inputs := state.inputQueues
  outputs := state.completion.outputQueues

def inside (state : State) : Multiset (Whereabouts × Packet) :=
  ∑ priority, (∑ place ∈ Place.inside,
      entries (.at priority place) (state.packetsAt priority place) +
    entries (.lost priority) (packetsOf ↑state.lost priority))

end State

/-- A worker at the top of its loop ends there once `running` is cleared. -/
def ended (threads : Threads) (id : WorkerId) : Bool :=
  !threads.running && (threads.scheduler.workers id).pc = .top

def gone (threads : Threads) : Whereabouts → Bool
  | .lost _ => true
  | .at _ (.heap id) => ended threads id
  | .at _ _ => false

def interface : Interface where
  State := Threads
  Action := Action
  Place := Whereabouts
  initial := { scheduler := .initial, running := true }
  moves := wiring.moves State.step
  readsSockets := false
  datagram _ := none
  reads _ _ := none
  packetCount _ := 0
  running := Loop.running
  ends threads := threads.scheduler.ends
  inside threads := threads.scheduler.inside
  gone := gone

namespace State

theorem inside_taken {state : State} (accounted : state.books.Accounted) :
    state.inside.map Prod.snd + handedAll state.completion.outputQueues =
      ∑ priority, ↑(state.taken priority) := by
  have outside : Finset.univ.filter (fun place : Place => ¬ (place ≠ .sent ∧ place ≠ .dropped)) =
      {.sent, .dropped} := by
    decide
  have places (priority : Priority) : (↑(state.taken priority) : Multiset Packet) =
      ∑ place ∈ Place.inside, state.packetsAt priority place + packetsOf ↑state.lost priority +
        ↑(state.completion.outputQueues priority).handed := by
    have handed : (↑(state.completion.outputQueues priority).handed : Multiset Packet) =
        ∑ place ∈ {Place.sent, Place.dropped}, state.packetsAt priority place := by
      rw [Finset.sum_pair (by decide)]
      exact Multiset.coe_eq_coe.mpr (OutputQueue.handed_split _)
    rw [taken_places accounted, handed, ← outside, add_right_comm, Place.inside,
      Finset.sum_filter_add_sum_filter_not]
  have within (priority : Priority) :
      (∑ place ∈ Place.inside, entries (Whereabouts.at priority place)
        (state.packetsAt priority place)).map Prod.snd =
      ∑ place ∈ Place.inside, state.packetsAt priority place := by
    have parts := map_sum (Multiset.mapAddMonoidHom (Prod.snd : Whereabouts × Packet → Packet))
      (fun place => entries (.at priority place) (state.packetsAt priority place)) Place.inside
    exact parts.trans (Finset.sum_congr rfl fun place _ => map_snd_entries _ _)
  simp only [places, Finset.sum_add_distrib, State.inside, Multiset.map_add, map_snd_sum, map_snd_entries,
    within]
  rfl

/-- What a step of the threads does at the ends, and what they receive in it. -/
structure Works (state : State) (item : Option (Priority × Packet)) (next : State) : Prop where
  inward : state.ends.Inward (item.map Prod.snd) next.ends
  taken : ∀ priority, next.taken priority =
    state.taken priority ++ (item.bind (ofClass priority)).toList
  waited : ∀ entry ∈ item, entry.2 ∈ (state.inputQueues entry.1).queue

theorem Works.quiet {state next : State} (ends : next.ends = state.ends)
    (taken : next.taken = state.taken) : state.Works none next where
  inward := ends ▸ .refl _
  taken priority := by
    rw [taken]
    exact (List.append_nil _).symm
  waited := by simp

theorem Moves.works {state next : State} {id : WorkerId} (moves : Moves state id next) :
    ∃ item, state.Works item next := by
  cases moves with
  | receive site packet remaining received room slot hand unnumbered =>
      refine ⟨some (site.priority, packet), ⟨rfl, .front received, .refl _⟩, ?_, ?_⟩
      · intro priority
        by_cases same : site.priority = priority
        · subst same
          simp [State.receive, State.goto, setWorker, ofClass]
        · simp [State.receive, State.goto, setWorker, ofClass, same,
            PriorityTable.set_other (Ne.symm same)]
      · rintro entry ⟨⟩
        rw [(Channel.tryRecv_ok received).1]
        exact List.mem_cons_self
  | push site item accepted refused place keeps resumes resumes' =>
      refine ⟨none, ?_⟩
      unfold State.push
      split <;> exact .quiet rfl rfl
  | displace site scheduled item initial next place displaced sited slot hand unnumbered =>
      refine ⟨none, ?_⟩
      unfold State.displace
      split <;> exact .quiet rfl rfl
  | readTotalLimit | readPriorityLimit | storeBacklog | goto | spin | prepare | observe =>
      exact ⟨none, .quiet rfl rfl⟩

theorem own_works {state next : State} {action : Action} (own : wiring.own action = true)
    (stepped : state.step action = some next) : ∃ item, state.Works item next := by
  cases action with
  | arrive | disconnect | tick => cases own
  | store store =>
      simp only [step] at stepped
      split at stepped
      · cases stepped
        exact ⟨none, .quiet rfl rfl⟩
      · cases stepped
  | run id => exact (runWorker_moves stepped).works
  | pop id item =>
      simp only [step, popWorker] at stepped
      split at stepped
      · cases stepped
        exact ⟨none, .quiet rfl rfl⟩
      · cases stepped
  | complete id room =>
      simp only [step, completeWorker] at stepped
      split at stepped
      · cases stepped
        refine ⟨none, ⟨rfl, .nothing, ?_⟩, fun _ => (List.append_nil _).symm, by simp⟩
        exact CompletionRouter.complete_grown _ _ _
      · cases stepped

end State

theorem threads_kept {threads next : Threads} {action : Signal ⊕ Action}
    (kept : threads.scheduler.Kept) (moved : wiring.moves State.step threads action = some next) :
    next.scheduler.Kept := LoopWiring.kept State.step_kept kept moved

theorem signalled {threads next : Threads} {signal : Signal}
    (moved : wiring.moves State.step threads (.inl signal) = some next) :
    interface.Signalled threads signal next := by
  rcases LoopWiring.moves_behind moved with ⟨own, found, stepped, _⟩ | ⟨same, rfl⟩
  · obtain ⟨scheduler, running⟩ := next
    cases signal with
    | arrive priority packet =>
        simp only [LoopWiring.behind, wiring] at found
        split at found
        · cases found
          cases stepped
          exact ⟨rfl, rfl, rfl, rfl⟩
        · cases found
    | tick elapsed =>
        cases found
        cases stepped
        exact ⟨rfl, rfl, rfl, rfl⟩
    | stop => cases found
  · cases same
    exact ⟨rfl, rfl, rfl, rfl⟩

theorem worked {threads next : Threads} {action : Action} (kept : threads.scheduler.Kept)
    (moved : wiring.moves State.step threads (.inr action) = some next) :
    ∃ taken, interface.Worked threads next taken := by
  have after := threads_kept kept moved
  rcases LoopWiring.moves_behind moved with ⟨own, found, stepped, _⟩ | ⟨same, _⟩
  · simp only [LoopWiring.behind] at found
    split at found
    · rename_i enabled
      cases found
      obtain ⟨item, works⟩ := State.own_works enabled.1 stepped
      refine ⟨item.map Prod.snd, works.inward, ?_⟩
      refine (State.inside_taken after.accounted).trans ?_
      refine Eq.trans ?_ (congrArg _ (State.inside_taken kept.accounted).symm)
      rw [← sum_append_ofClass]
      exact Finset.sum_congr rfl fun priority _ => congrArg Multiset.ofList (works.taken priority)
    · cases found
  · cases same

theorem enabled (threads : Threads) {signal : Signal} (proper : signal.Proper) :
    ∃ next, wiring.moves State.step threads (.inl signal) = some next := by
  cases signal with
  | arrive priority packet =>
      have own : packet.priority = priority := proper
      simp [LoopWiring.moves, LoopWiring.behind, wiring, State.step, own]
  | tick elapsed => exact ⟨_, rfl⟩
  | stop => exact ⟨_, rfl⟩

/-- Packets are received by class, on the channels and off them. -/
def State.OwnClasses (state : State) : Prop :=
  (∀ priority, ∀ packet ∈ state.taken priority, packet.priority = priority) ∧
    Offered state.inputQueues

theorem State.Works.ownClasses {state next : State} {item : Option (Priority × Packet)}
    (works : state.Works item next) (classes : state.OwnClasses) : next.OwnClasses := by
  obtain ⟨taken, offered⟩ := classes
  refine ⟨?_, works.inward.inputs.offered offered⟩
  intro priority packet listed
  rw [works.taken] at listed
  rcases List.mem_append.mp listed with old | new
  · exact taken priority packet old
  · obtain ⟨entry, received, class_⟩ := Option.bind_eq_some_iff.mp (Option.mem_toList.mp new)
    obtain ⟨rfl, rfl⟩ := mem_ofClass.mp class_
    exact offered entry.1 entry.2 (works.waited entry received)

theorem State.initial_ownClasses : initial.OwnClasses := by
  refine ⟨by simp [initial], ?_⟩
  rintro priority packet ⟨⟩

theorem threads_ownClasses {threads next : Threads} {action : Signal ⊕ Action}
    (classes : threads.scheduler.OwnClasses)
    (moved : wiring.moves State.step threads action = some next) : next.scheduler.OwnClasses := by
  rcases LoopWiring.moves_behind moved with ⟨own, found, stepped, _⟩ | ⟨rfl, rfl⟩
  · cases action with
    | inl signal =>
        obtain ⟨scheduler, running⟩ := next
        cases signal with
        | arrive priority packet =>
            simp only [LoopWiring.behind, wiring] at found
            split at found
            · rename_i same
              subst same
              cases found
              cases stepped
              exact ⟨classes.1, classes.2.send packet⟩
            · cases found
        | tick elapsed =>
            cases found
            cases stepped
            exact classes
        | stop => cases found
    | inr action =>
        simp only [LoopWiring.behind] at found
        split at found
        · rename_i enabled
          cases found
          obtain ⟨item, works⟩ := State.own_works enabled.1 stepped
          exact works.ownClasses classes
        · cases found
  · exact classes

/-- What is handed over was received. -/
theorem State.handed_taken {state : State} (accounted : state.books.Accounted) {priority : Priority}
    {packet : Packet} (handed : packet ∈ (state.completion.outputQueues priority).handed) :
    packet ∈ state.taken priority := by
  rw [← Multiset.mem_coe, taken_places accounted]
  refine Multiset.mem_add.mpr (.inl ?_)
  have split := (OutputQueue.handed_split _).mem_iff.mp handed
  rcases List.mem_append.mp split with sent | dropped
  · exact Multiset.mem_sum.mpr ⟨.sent, Finset.mem_univ _, sent⟩
  · exact Multiset.mem_sum.mpr ⟨.dropped, Finset.mem_univ _, dropped⟩

def fed : Fed where
  toInterface := interface
  Invariant threads := threads.scheduler.Kept ∧ threads.scheduler.OwnClasses
  initial_invariant := ⟨State.initial_kept, State.initial_ownClasses⟩
  preserved invariant moved := ⟨threads_kept invariant.1 moved, threads_ownClasses invariant.2 moved⟩
  signals := signalled
  works invariant moved := worked invariant.1 moved
  enabled _ proper := enabled _ proper
  initial_connected _ := rfl
  initial_nothing := by
    have nothing := State.inside_taken State.initial_accounted
    change queuedAll (fun _ => .empty) + State.initial.inside.map Prod.snd +
      handedAll State.initial.completion.outputQueues = 0
    rw [add_assoc, nothing, queuedAll_empty fun _ => rfl]
    simp [State.initial]
  drops invariant priority := (invariant.1.accounted priority).counted
  silent _ _ := rfl
  uncounted _ := rfl

def classStage (registrations : List Registration) : ClassStage registrations :=
  fed.toClassStage registrations fun invariant priority packet handed =>
    invariant.2.1 priority packet (State.handed_taken invariant.1.accounted handed)

end EdfPipeline.MultiWorker
