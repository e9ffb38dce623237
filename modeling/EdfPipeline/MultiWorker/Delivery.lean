import EdfPipeline.MultiWorker.Accounts
import Mathlib.Tactic.Abel

/-!
# Delivery

Where a received packet can be, and when it stays in one of these places until
it is sent or counted as dropped. The only way out is a displaced item whose
class has exhausted its quota: the quotas may have shrunk below what the worker
holds since the item was admitted.
-/

set_option autoImplicit false

namespace EdfPipeline.MultiWorker

open ReorderBuffer EarliestFirst

inductive Place where
  | heap (id : WorkerId)
  | scheduled (id : WorkerId)
  /-- The locals `packet` and `work_item` of an admission in progress. -/
  | hand (id : WorkerId)
  | pending
  | sent
  | dropped
  deriving DecidableEq

def Place.all : List Place :=
  (List.finRange 3).map .heap ++ ((List.finRange 3).map .scheduled ++
    ((List.finRange 3).map .hand ++ [.pending, .sent, .dropped]))

instance : Fintype Place where
  elems := ⟨Place.all, by decide⟩
  complete place := by
    change place ∈ Place.all
    cases place <;> simp [Place.all]

theorem sum_places {M : Type} [AddCommMonoid M] (holds : Place → M) :
    ∑ place, holds place = ∑ id, holds (.heap id) + (∑ id, holds (.scheduled id) +
      (∑ id, holds (.hand id) + (holds .pending + (holds .sent + holds .dropped)))) := by
  change (Place.all.map holds).sum = _
  simp only [Place.all, List.map_append, List.map_map, List.sum_append, Fin.sum_univ_def,
    List.map_cons, List.map_nil, List.sum_cons, List.sum_nil, add_zero]
  rfl

namespace State

def packetsAt (state : State) (priority : Priority) : Place → Multiset Packet
  | .heap id => packetsOf ↑(state.workers id).heap priority
  | .scheduled id => packetsOf ↑(state.workers id).pc.slot priority
  | .hand id => packetsOf ↑(state.workers id).pc.hand priority +
      waitingOf ↑(state.workers id).pc.unnumbered priority
  | .pending => (Pending.items (state.completion.trackers priority).inner.pending).map Prod.snd
  | .sent => ↑(state.completion.outputQueues priority).sent
  | .dropped => ↑(state.completion.outputQueues priority).dropped

/-- Each received packet is at one place, once, and the drop counter counts the
packets dropped. -/
structure Conserved (state : State) : Prop where
  places : ∀ priority, (↑(state.taken priority) : Multiset Packet) =
    ∑ place, state.packetsAt priority place
  counted : ∀ priority, (state.completion.outputQueues priority).Counted

def Quiescent (state : State) : Prop :=
  ∀ id, (state.workers id).heap = [] ∧ (state.workers id).pc.slot = [] ∧
    (state.workers id).pc.hand = []

/-- Nothing waits for a number that will never complete. -/
def Flushed (state : State) : Prop :=
  ∀ priority, (state.completion.trackers priority).inner.pending.entries = [] ∧
    (state.completion.trackers priority).inner.nextEmit =
      (state.completion.trackers priority).nextSequence

structure Delivers (state : State) : Prop where
  conserved : state.Conserved
  flushed : state.Quiescent → state.Flushed

theorem Conserved.existsUnique_place {state : State} (conserved : state.Conserved)
    {priority : Priority} (distinct : (state.taken priority).Nodup) {packet : Packet}
    (received : packet ∈ state.taken priority) :
    ∃! place, packet ∈ state.packetsAt priority place :=
  Ledger.existsUnique_holder (conserved.places priority) distinct received

theorem held_packets (state : State) (priority : Priority) :
    packetsOf state.books.held priority + waitingOf state.books.unnumbered priority =
      ∑ id, state.packetsAt priority (.heap id) + (∑ id, state.packetsAt priority (.scheduled id) +
        ∑ id, state.packetsAt priority (.hand id)) := by
  have held : state.books.held = ∑ id, (state.workers id).held := rfl
  have unnumbered : state.books.unnumbered = ∑ id, (state.workers id).unnumbered := rfl
  rw [held, unnumbered, packetsOf_sum, waitingOf_sum]
  simp only [packetsAt, Worker.held, Worker.unnumbered, ← Multiset.coe_add, packetsOf_add,
    Finset.sum_add_distrib, add_assoc]

/-- Every packet received is at one of the places or lost. -/
theorem taken_places {state : State} (accounted : state.books.Accounted) (priority : Priority) :
    (↑(state.taken priority) : Multiset Packet) =
      ∑ place, state.packetsAt priority place + packetsOf ↑state.lost priority := by
  have account := accounted priority
  have numbered := congrArg (Multiset.map Prod.snd) account.buffered.split
  rw [Multiset.map_add, Multiset.map_add, map_snd_stamped, map_snd_stamped, numbersOf_snd,
    packetsOf_add] at numbered
  have handed : (↑((state.books.numbered priority).take
      (state.books.completion.trackers priority).buffer.nextEmit) : Multiset Packet) =
      state.packetsAt priority .sent + state.packetsAt priority .dropped :=
    (congrArg Multiset.ofList account.handed).symm.trans
      (Multiset.coe_eq_coe.mpr (OutputQueue.handed_split _))
  have pending : (Pending.items
      (state.books.completion.trackers priority).buffer.pending).map Prod.snd =
      state.packetsAt priority .pending := rfl
  have lost : packetsOf state.books.lost priority = packetsOf ↑state.lost priority := rfl
  calc (↑(state.taken priority) : Multiset Packet)
      = ↑(state.books.numbered priority) + waitingOf state.books.unnumbered priority :=
        account.received
    _ = state.packetsAt priority .sent + state.packetsAt priority .dropped +
          state.packetsAt priority .pending +
          (packetsOf state.books.held priority + packetsOf ↑state.lost priority) +
          waitingOf state.books.unnumbered priority := by
        rw [numbered, handed, pending, lost]
    _ = packetsOf state.books.held priority + waitingOf state.books.unnumbered priority +
          (state.packetsAt priority .pending +
            (state.packetsAt priority .sent + state.packetsAt priority .dropped)) +
          packetsOf ↑state.lost priority := by abel
    _ = ∑ place, state.packetsAt priority place + packetsOf ↑state.lost priority := by
        rw [held_packets, sum_places]
        simp only [add_assoc]

/-- With the accounts in order, packets are conserved as long as none is lost. -/
theorem conserved_iff {state : State} (accounted : state.books.Accounted) :
    state.Conserved ↔ state.lost = [] := by
  have nothing : (∀ priority, packetsOf ↑state.lost priority = 0) ↔ state.lost = [] := by
    rw [packetsOf_eq_zero, Multiset.coe_eq_zero]
  rw [← nothing]
  constructor
  · intro conserved priority
    have places := taken_places accounted priority
    rw [conserved.places priority] at places
    exact left_eq_add.mp places
  · intro none
    refine ⟨?_, fun priority => (accounted priority).counted⟩
    intro priority
    rw [taken_places accounted priority, none priority, add_zero]

theorem quiescent_held {state : State} (quiescent : state.Quiescent) : state.books.held = 0 := by
  have total : state.books.held = ∑ id, (state.workers id).held := rfl
  rw [total]
  refine Finset.sum_eq_zero ?_
  intro id _
  obtain ⟨heap, slot, hand⟩ := quiescent id
  rw [Worker.held, heap, slot, hand]
  rfl

/-- With nothing held and nothing lost, no number is outstanding. -/
theorem flushed_of_quiescent {state : State} (accounted : state.books.Accounted)
    (lost : state.lost = []) (quiescent : state.Quiescent) : state.Flushed := by
  intro priority
  have account := accounted priority
  have outstanding : state.books.held + state.books.lost = 0 := by
    rw [quiescent_held quiescent, zero_add]
    exact congrArg Multiset.ofList lost
  have buffered := account.buffered
  rw [outstanding] at buffered
  obtain ⟨empty, all⟩ := Buffer.Accounts.quiescent buffered
  exact ⟨empty, all.trans account.next.symm⟩

theorem delivers_iff {state : State} (accounted : state.books.Accounted) :
    state.Delivers ↔ state.lost = [] :=
  ⟨fun delivers => (conserved_iff accounted).mp delivers.conserved,
    fun lost => ⟨(conserved_iff accounted).mpr lost, flushed_of_quiescent accounted lost⟩⟩

/-- A worker that displaces an item finds quota left for the item's class. -/
def RequeueRoom (state : State) : Action → Prop
  | .run id => ∀ scheduled initial, (state.workers id).displaced = some (scheduled, initial) →
      (state.workers id).counts scheduled.priority <
        (state.workers id).perPriorityLimit scheduled.priority
  | _ => True

/-- A requeue the worker makes next succeeds. -/
def RequeueSucceeds (state : State) : Action → Prop
  | .run id => ∀ scheduled initial, (state.workers id).displaced = some (scheduled, initial) →
      ((state.workers id).pushWithCapacity scheduled).1 = true
  | _ => True

theorem requeueSucceeds_iff {state : State} (sound : state.Sound) {action : Action} :
    state.RequeueSucceeds action ↔ state.RequeueRoom action := by
  cases action with
  | run id =>
      refine forall_congr' fun scheduled => forall_congr' fun initial =>
        forall_congr' fun displaced => ?_
      rw [← (sound.workers id).requeue_room displaced, Worker.pushWithCapacity_eq]
      split <;> simp_all
  | _ => exact Iff.rfl

theorem requeueRoom_none {state : State} {id : WorkerId}
    (none : (state.workers id).displaced = none) : state.RequeueRoom (.run id) := by
  intro scheduled initial displaced
  rw [none] at displaced
  cases displaced

/-- A step loses an item exactly if it displaces one that finds no room. -/
theorem moves_lost {state next : State} {id : WorkerId} (sound : state.Sound)
    (moves : Moves state id next) (none : state.lost = []) :
    next.lost = [] ↔ state.RequeueRoom (.run id) := by
  cases moves with
  | readTotalLimit place =>
      exact iff_of_true none (requeueRoom_none (Worker.displaced_none (by rw [place]; rfl)))
  | readPriorityLimit priority rest place =>
      exact iff_of_true none (requeueRoom_none (Worker.displaced_none (by rw [place]; rfl)))
  | storeBacklog place =>
      exact iff_of_true none (requeueRoom_none (Worker.displaced_none (by rw [place]; rfl)))
  | goto pc slot hand hand' unnumbered unnumbered' =>
      exact iff_of_true none (requeueRoom_none (Worker.displaced_none hand'))
  | spin hand => exact iff_of_true none (requeueRoom_none (Worker.displaced_none hand))
  | receive site packet remaining received room slot hand unnumbered =>
      exact iff_of_true none (requeueRoom_none (Worker.displaced_none hand))
  | prepare site packet ticket place =>
      exact iff_of_true none (requeueRoom_none (Worker.displaced_none (by rw [place]; rfl)))
  | push site item accepted refused place keeps resumes resumes' =>
      rw [push_accepted (sound.admits place)]
      exact iff_of_true none (requeueRoom_none keeps)
  | displace site scheduled item initial next place displaced sited slot hand unnumbered =>
      have room := (sound.workers id).requeue_room displaced
      by_cases full : (state.workers id).QuotaReached scheduled.priority
      · rw [displace_refused full]
        refine iff_of_false (List.cons_ne_nil _ _) ?_
        intro admitted
        exact room.mpr (admitted scheduled initial displaced) full
      · rw [displace_accepted full]
        refine iff_of_true none ?_
        intro other initial' same
        rw [displaced] at same
        cases same
        exact room.mp full
  | observe scheduled start place =>
      exact iff_of_true none (requeueRoom_none (Worker.displaced_none (by rw [place]; rfl)))

theorem step_lost {state next : State} {action : Action} (sound : state.Sound)
    (stepped : state.step action = some next) (none : state.lost = []) :
    next.lost = [] ↔ state.RequeueRoom action := by
  cases action with
  | arrive priority packet =>
      cases stepped
      exact iff_of_true none trivial
  | disconnect priority =>
      cases stepped
      exact iff_of_true none trivial
  | tick elapsed =>
      cases stepped
      exact iff_of_true none trivial
  | store store =>
      simp only [step] at stepped
      split at stepped
      · cases stepped
        exact iff_of_true none trivial
      · cases stepped
  | run id => exact moves_lost sound (runWorker_moves stepped) none
  | pop id item =>
      simp only [step, popWorker] at stepped
      split at stepped
      · cases stepped
        exact iff_of_true none trivial
      · cases stepped
  | complete id room =>
      simp only [step, completeWorker] at stepped
      split at stepped
      · cases stepped
        exact iff_of_true none trivial
      · cases stepped

/-- What every reachable state satisfies, whatever was lost. -/
structure Kept (state : State) : Prop where
  sound : state.Sound
  accounted : state.books.Accounted

theorem initial_kept : State.initial.Kept := ⟨initial_sound, initial_accounted⟩

theorem step_kept {state next : State} {action : Action} (kept : state.Kept)
    (stepped : state.step action = some next) : next.Kept :=
  ⟨step_sound kept.sound stepped, step_accounted kept.accounted stepped⟩

theorem displaced_of_disabled {state : State} {id : WorkerId}
    (disabled : state.step (.run id) = none) : (state.workers id).displaced = none := by
  cases place : (state.workers id).pc with
  | prepared site item =>
      cases site with
      | drain priority rest => simp only [Worker.displaced, place]
      | poll scheduled initial =>
          simp only [step, runWorker, place] at disabled
          split at disabled <;> cases disabled
      | guard scheduled initial =>
          simp only [step, runWorker, place] at disabled
          cases disabled
  | _ => exact Worker.displaced_none (by rw [place]; rfl)

theorem requeueRoom_of_disabled {state : State} {action : Action}
    (disabled : state.step action = none) : state.RequeueRoom action := by
  cases action with
  | run id => exact requeueRoom_none (displaced_of_disabled disabled)
  | _ => trivial

end State

/-- Along the run every packet taken stays in one place, a quiescent state is
flushed and every requeue succeeds. -/
structure DeliversAlong (actions : List Action) : Prop where
  delivers : TransitionSystem.Throughout State.step State.Delivers State.initial actions
  requeues : TransitionSystem.Along State.step State.RequeueSucceeds State.initial actions

/-- A run delivers exactly if no displaced item's class has exhausted its quota. -/
theorem deliversAlong_iff_requeue_room (actions : List Action) :
    DeliversAlong actions ↔
      TransitionSystem.Along State.step State.RequeueRoom State.initial actions := by
  have requeues : TransitionSystem.Along State.step State.RequeueSucceeds State.initial actions ↔
      TransitionSystem.Along State.step State.RequeueRoom State.initial actions :=
    TransitionSystem.along_iff State.step_kept
      (fun kept => State.requeueSucceeds_iff kept.sound) State.initial_kept actions
  have delivers : TransitionSystem.Throughout State.step State.Delivers State.initial actions ↔
      TransitionSystem.Along State.step State.RequeueRoom State.initial actions := by
    refine TransitionSystem.throughout_iff_along State.step_kept ?_
      State.requeueRoom_of_disabled State.initial_kept
      ((State.delivers_iff State.initial_accounted).mpr rfl) actions
    intro state action next kept holds stepped
    rw [State.delivers_iff (State.step_kept kept stepped).accounted]
    exact State.step_lost kept.sound stepped ((State.delivers_iff kept.accounted).mp holds)
  exact ⟨fun run => delivers.mp run.delivers,
    fun room => ⟨delivers.mpr room, requeues.mpr room⟩⟩

/-! ## A quota that shrinks under a preempted packet

Worker 2 admits three Medium packets under the initial quota of 60. The first
pass of the balancer sees a backlog of three and leaves it a Medium quota of
one. When the second packet is preempted by a High one, the third still fills
that quota.
-/

def expectedLatencies : PriorityTable Nat
  | .high => Duration.fromMillis 1
  | .medium => Duration.fromMillis 10
  | .low => Duration.fromMillis 100
  | .bestEffort => 0

def backlogOfThree : PriorityTable Nat
  | .medium => 3
  | _ => 0

def mediumPacket (id : Nat) : Packet :=
  Packet.fromBuffer id (Duration.fromMicros id) .medium [] (Duration.fromMillis 10)

def urgentPacket : Packet :=
  Packet.fromBuffer 3 (Duration.fromMillis 1) .high [] (Duration.fromMillis 1)

def mediumItem (id : Nat) : ScheduledItem where
  deadline := (mediumPacket id).deadline
  workItem := { priority := .medium, sequence := id, packet := mediumPacket id }

def admitThree : List Action :=
  [.tick (Duration.fromMillis 1), .arrive .medium (mediumPacket 0),
    .arrive .medium (mediumPacket 1), .arrive .medium (mediumPacket 2)] ++
    List.replicate 20 (.run 2)

def firstPass : List Action :=
  (autobalance expectedLatencies AdaptiveController.new.averageProcessingNs backlogOfThree).map
    .store

def processFirst : List Action :=
  .pop 2 (mediumItem 0) :: List.replicate 4 (.run 2) ++
    [.tick (Duration.fromMicros 50), .run 2, .complete 2 fun _ => true]

def preemptSecond : List Action :=
  List.replicate 11 (.run 2) ++ [.pop 2 (mediumItem 1), .arrive .high urgentPacket] ++
    List.replicate 4 (.run 2)

def shrunkQuotaRun : List Action := admitThree ++ firstPass ++ processFirst ++ preemptSecond

private theorem shrunkQuotaRun_loses :
    (run State.initial shrunkQuotaRun).map (fun state => state.lost) = some [mediumItem 1] := by
  decide +kernel

theorem shrunk_quota_loses_preempted_packet : ¬ DeliversAlong shrunkQuotaRun := by
  intro along
  obtain ⟨reached, ran, lost⟩ := Option.map_eq_some_iff.mp shrunkQuotaRun_loses
  have delivers := TransitionSystem.throughout_iff_prefixes.mp along.delivers shrunkQuotaRun
    (List.prefix_refl _) reached ran
  have kept := TransitionSystem.run_invariant State.step_kept State.initial_kept ran
  rw [(State.delivers_iff kept.accounted).mp delivers] at lost
  cases lost

end EdfPipeline.MultiWorker
