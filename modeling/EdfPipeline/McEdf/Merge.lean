import EdfPipeline.McEdf.Moves
import Mathlib.Data.List.Perm.Lattice

/-!
# The merge of the three EDFs

The re-ordering stage buffers the head of each channel and forwards the earliest
of them. Read from its oldest end, what was ever on a channel is what was
forwarded of it, then the packet being forwarded, the buffer and the channel.
-/

set_option autoImplicit false

namespace EdfPipeline.McEdf

open EarliestFirst TransitionSystem

namespace State

/-- The packet a step of a worker puts on the output channel of its EDF. -/
def sends (state : State) : Action → Option (EdfChannel × Packet)
  | .run channel =>
      match (state.workers channel).pc with
      | .output task => some (channel, task.packet)
      | _ => none
  | _ => none

def forwards (state : State) : Action → Option OrderedPacket
  | .forward _ =>
      match state.reorder.pc with
      | .forward ordered => some ordered
      | _ => none
  | _ => none

/-- The packet of an item of this channel. -/
def ofChannel (channel : EdfChannel) (item : EdfChannel × Packet) : Option Packet :=
  if item.1 = channel then some item.2 else none

/-- Nobody but the re-ordering stage takes from the output channels of the EDFs, and
only workers add to them. -/
structure Feeds (state : State) (action : Action) (next : State) : Prop where
  quiet : state.forwards action = none
  reorder : next.reorder = state.reorder
  running : next.running = true → state.running = true
  outputs : ∀ channel, (next.edfOutputs channel).queue =
    (state.edfOutputs channel).queue ++ ((state.sends action).bind (ofChannel channel)).toList

theorem Feeds.still {state next : State} {action : Action} (unsent : state.sends action = none)
    (quiet : state.forwards action = none) (reorder : next.reorder = state.reorder)
    (running : next.running = true → state.running = true)
    (outputs : next.edfOutputs = state.edfOutputs) : Feeds state action next where
  quiet
  reorder
  running
  outputs channel := by rw [unsent, outputs, Option.bind_none, Option.toList_none, List.append_nil]

theorem dispatch_feeds {state next : State} (stepped : state.dispatch = some next) :
    Feeds state .dispatch next := by
  obtain ⟨_, _, _, _, rfl⟩ := (dispatch_moves stepped).frame
  exact .still rfl rfl rfl id rfl

theorem RunMove.feeds {state next : State} {channel : EdfChannel}
    (move : RunMove state channel next) : Feeds state (.run channel) next := by
  have kept (quiet : state.sends (.run channel) = none) (reorder : next.reorder = state.reorder)
      (running : next.running = state.running) (outputs : next.edfOutputs = state.edfOutputs) :
      Feeds state (.run channel) next :=
    .still quiet rfl reorder (fun on => running ▸ on) outputs
  cases move with
  | output place =>
      refine ⟨rfl, rfl, id, ?_⟩
      intro other
      simp only [sends, place, Option.bind_some, ofChannel, setWorker, setEdfOutput]
      by_cases same : channel = other
      · subst same
        rw [Function.update_self, if_pos rfl]
        rfl
      · rw [Function.update_of_ne (Ne.symm same), if_neg same, Option.toList_none, List.append_nil]
  | top place | receiveHigh place | noHigh place | lowerDone place | receiveLower place
  | skipLower place | popFifo place | idle place | putBack place | proceed place | process place
  | spin place | done place =>
      exact kept (by simp [sends, place]) rfl rfl rfl

/-- Every step is one of the re-ordering stage or feeds it. -/
theorem step_merge {state next : State} {action : Action} (stepped : state.step action = some next) :
    ReorderMove state action next ∨ Feeds state action next := by
  cases action with
  | arrive packet =>
      simp only [step] at stepped
      split at stepped <;> cases stepped
      exact .inr (.still rfl rfl rfl id rfl)
  | disconnect priority | tick elapsed =>
      cases stepped
      exact .inr (.still rfl rfl rfl id rfl)
  | stop =>
      cases stepped
      exact .inr (.still rfl rfl rfl (fun on => nomatch on) rfl)
  | dispatch => exact .inr (dispatch_feeds stepped)
  | run channel => exact .inr ((runWorker_moves stepped).feeds)
  | pop channel task =>
      simp only [step, popWorker] at stepped
      split at stepped <;> cases stepped
      exact .inr (.still rfl rfl rfl id rfl)
  | await channel timeout =>
      simp only [step, awaitWorker] at stepped
      split at stepped
      · split at stepped <;> cases stepped
        exact .inr (.still rfl rfl rfl id rfl)
      · cases stepped
  | reorder => exact .inl (runReorder_moves stepped)
  | forward room => exact .inl (forwardReorder_moves stepped)

end State

/-! ## The line of a channel -/

namespace Reorder

/-- The packet being forwarded, on the line of its channel. -/
def handOf (reorder : Reorder) (channel : EdfChannel) : List Packet :=
  match reorder.pc with
  | .forward ordered => if ordered.priority = channel.priority then [ordered.packet] else []
  | _ => []

def bufferOf (reorder : Reorder) (channel : EdfChannel) : List Packet :=
  ((reorder.buffers channel).map OrderedPacket.packet).toList

end Reorder

namespace State

/-- What is still to be forwarded of a channel, the next packet first. -/
def onChannel (state : State) (channel : EdfChannel) : List Packet :=
  state.reorder.handOf channel ++
    (state.reorder.bufferOf channel ++ (state.edfOutputs channel).queue)

def forwardedOf (channel : EdfChannel) (forwarded : List OrderedPacket) : List Packet :=
  (forwarded.filter (·.priority = channel.priority)).map OrderedPacket.packet

def sentOf (channel : EdfChannel) (past : Past State Action) : List Packet :=
  (observed sends past).filterMap (ofChannel channel)

/-- Buffered packets are those of their channels. -/
structure OwnBuffers (state : State) : Prop where
  buffered : ∀ channel, ∀ ordered ∈ state.reorder.buffers channel,
    ordered = .of channel ordered.packet
  hand : ∀ ordered, state.reorder.pc = .forward ordered →
    ∃ channel, ordered = .of channel ordered.packet
  stopped : state.reorder.pc = .returned → state.running = false

theorem ReorderMove.unsent {state next : State} {action : Action}
    (move : ReorderMove state action next) : state.sends action = none := by
  cases move <;> rfl

theorem ReorderMove.running {state next : State} {action : Action}
    (move : ReorderMove state action next) : next.running = state.running := by
  cases move <;> rfl

theorem ReorderMove.ownBuffers {state next : State} {action : Action} (own : state.OwnBuffers)
    (move : ReorderMove state action next) : next.OwnBuffers := by
  cases move with
  | begin place running => exact ⟨own.buffered, nofun, nofun⟩
  | quit place stopped => exact ⟨own.buffered, nofun, fun _ => stopped⟩
  | skip place full => exact ⟨own.buffered, nofun, nofun⟩
  | filled place => exact ⟨own.buffered, nofun, nofun⟩
  | idle place empty => exact ⟨own.buffered, nofun, nofun⟩
  | forward place => exact ⟨own.buffered, nofun, nofun⟩
  | @take channel rest packet remaining place empty front =>
      refine ⟨?_, nofun, nofun⟩
      refine (Function.forall_update_iff state.reorder.buffers fun channel buffer =>
        ∀ ordered ∈ buffer, ordered = .of channel ordered.packet).mpr ⟨?_, fun other _ => own.buffered other⟩
      intro ordered same
      cases same
      rfl
  | @select channel ordered place held least =>
      refine ⟨?_, ?_, nofun⟩
      · exact (Function.forall_update_iff state.reorder.buffers fun channel buffer =>
          ∀ ordered ∈ buffer, ordered = .of channel ordered.packet).mpr
          ⟨nofun, fun other _ => own.buffered other⟩
      · intro other same
        cases same
        exact ⟨channel, own.buffered channel ordered held⟩

/-- What a step forwards of a channel was the head of its line. -/
theorem ReorderMove.line {state next : State} {action : Action} (own : state.OwnBuffers)
    (move : ReorderMove state action next) (channel : EdfChannel) :
    forwardedOf channel (state.forwards action).toList ++ next.onChannel channel =
      state.onChannel channel := by
  cases move with
  | begin place _ | quit place _ | skip place _ | filled place | idle place _ =>
      simp [forwardedOf, forwards, onChannel, Reorder.handOf, Reorder.bufferOf, place]
  | @take filling rest packet remaining place empty front =>
      simp only [forwardedOf, forwards, onChannel, Reorder.handOf, Reorder.bufferOf, place,
        setEdfOutput]
      by_cases here : channel = filling
      · subst here
        simp [empty, front, OrderedPacket.of]
      · simp [here]
  | @select selected ordered place held least =>
      have priority : ordered.priority = selected.priority := by
        rw [own.buffered selected ordered held]
        rfl
      simp only [forwardedOf, forwards, onChannel, Reorder.handOf, Reorder.bufferOf, place]
      by_cases here : channel = selected
      · subst here
        simp [held, priority]
      · have elsewhere : selected.priority ≠ channel.priority :=
          fun same => here (EdfChannel.priority_injective same).symm
        simp [here, priority, elsewhere]
  | @forward ordered room place =>
      by_cases here : ordered.priority = channel.priority <;>
        simp [forwardedOf, forwards, onChannel, Reorder.handOf, Reorder.bufferOf, place, here]

theorem ReorderMove.forwards_own {state next : State} {action : Action} (own : state.OwnBuffers)
    (move : ReorderMove state action next) :
    ∀ ordered ∈ state.forwards action, ∃ channel, ordered = .of channel ordered.packet := by
  cases move with
  | forward place =>
      intro ordered same
      simp only [forwards, place, Option.mem_def, Option.some.injEq] at same
      exact own.hand ordered (same ▸ place)
  | begin _ _ | quit _ _ | skip _ _ | take _ _ _ | filled _ | idle _ _ | select _ _ _ => nofun

/-- Everything ever on a channel is what was forwarded of it and what is left. -/
structure Merging (start : State) (history : State × Past State Action) : Prop where
  own : history.1.OwnBuffers
  made : ∀ ordered ∈ observed forwards history.2, ∃ channel, ordered = .of channel ordered.packet
  line : ∀ channel, forwardedOf channel (observed forwards history.2) ++
    history.1.onChannel channel = (start.edfOutputs channel).queue ++ sentOf channel history.2
  earliest : ∀ ordered, history.1.reorder.pc = .forward ordered → ∀ channel,
    ∀ other ∈ history.1.reorder.buffers channel, ordered.packet.deadline ≤ other.packet.deadline

theorem sentOf_append (channel : EdfChannel) (past : Past State Action) (state : State)
    (action : Action) : sentOf channel (past ++ [(state, action)]) =
      sentOf channel past ++ ((state.sends action).bind (ofChannel channel)).toList :=
  filterMap_observed_append State.sends (ofChannel channel) past state action

theorem forwardedOf_append (channel : EdfChannel) (earlier later : List OrderedPacket) :
    forwardedOf channel (earlier ++ later) =
      forwardedOf channel earlier ++ forwardedOf channel later := by
  rw [forwardedOf, List.filter_append, List.map_append]
  rfl

theorem OwnBuffers.deadline {state : State} (own : state.OwnBuffers) {channel : EdfChannel}
    {ordered : OrderedPacket} (held : ordered ∈ state.reorder.buffers channel) :
    ordered.deadline = ordered.packet.deadline := by
  rw [own.buffered channel ordered held]
  rfl

theorem ReorderMove.earliest {state next : State} {action : Action} (own : state.OwnBuffers)
    (move : ReorderMove state action next) {ordered : OrderedPacket}
    (place : next.reorder.pc = .forward ordered) (channel : EdfChannel) :
    ∀ other ∈ next.reorder.buffers channel, ordered.packet.deadline ≤ other.packet.deadline := by
  cases move with
  | begin _ _ | quit _ _ | skip _ _ | take _ _ _ | filled _ | idle _ _ | forward _ => cases place
  | @select selected ordered' place' held least =>
      cases place
      intro other there
      change other ∈ Function.update state.reorder.buffers selected none channel at there
      by_cases here : channel = selected
      · subst here
        rw [Function.update_self] at there
        cases there
      · rw [Function.update_of_ne here] at there
        rw [← own.deadline held, ← own.deadline there]
        exact least channel other there

theorem Feeds.onChannel {state next : State} {action : Action} (feeds : Feeds state action next)
    (channel : EdfChannel) : next.onChannel channel =
      state.onChannel channel ++ ((state.sends action).bind (ofChannel channel)).toList := by
  rw [State.onChannel, State.onChannel, feeds.reorder, feeds.outputs, List.append_assoc,
    List.append_assoc]

theorem step_merging {start : State} {history next : State × Past State Action} {action : Action}
    (merging : Merging start history) (stepped : recorded step history action = some next) :
    Merging start next := by
  obtain ⟨state, past⟩ := history
  obtain ⟨after, later⟩ := next
  obtain ⟨moved, rfl⟩ := recorded_eq_some.mp stepped
  obtain ⟨own, made, line, earliest⟩ := merging
  rcases step_merge moved with move | feeds
  · refine ⟨move.ownBuffers own, forall_observed made (move.forwards_own own), fun channel => ?_,
      fun ordered place => move.earliest own place⟩
    rw [observed_append, forwardedOf_append, List.append_assoc, move.line own, line, sentOf_append,
      move.unsent, Option.bind_none, Option.toList_none, List.append_nil]
  · refine ⟨⟨?_, ?_, ?_⟩, ?_, ?_, ?_⟩
    · rw [feeds.reorder]
      exact own.buffered
    · rw [feeds.reorder]
      exact own.hand
    · rw [feeds.reorder]
      intro returned
      by_contra on
      have before := feeds.running (Bool.eq_true_of_not_eq_false on)
      rw [own.stopped returned] at before
      cases before
    · rw [observed_none feeds.quiet]
      exact made
    · intro channel
      rw [observed_none feeds.quiet, feeds.onChannel, ← List.append_assoc, line, sentOf_append,
        List.append_assoc]
    · rw [feeds.reorder]
      exact earliest

/-! ## Channels loaded beforehand -/

/-- Each channel is sorted by deadline. -/
def Loaded (start : State) : Prop :=
  ∀ channel, (start.edfOutputs channel).queue.Pairwise
    fun earlier later => earlier.deadline ≤ later.deadline

/-- Where nothing is sent on the channels: what was forwarded is sorted and comes
before what is left, and channels already looked at in the loop over the buffers
are buffered if they hold anything. -/
structure Sorting (history : State × Past State Action) : Prop where
  sorted : (observed forwards history.2).Pairwise
    fun earlier later => earlier.packet.deadline ≤ later.packet.deadline
  before : ∀ ordered ∈ observed forwards history.2, ∀ channel,
    ∀ packet ∈ history.1.onChannel channel, ordered.packet.deadline ≤ packet.deadline
  ready : ∀ ordered, history.1.reorder.pc = .forward ordered → ∀ channel,
    ∀ packet ∈ history.1.onChannel channel, ordered.packet.deadline ≤ packet.deadline
  looked : ∀ rest, history.1.reorder.pc = .fill rest → ∀ channel, channel ∉ rest →
    history.1.reorder.buffers channel = none → (history.1.edfOutputs channel).queue = []
  filled : history.1.reorder.pc = .select → ∀ channel,
    history.1.reorder.buffers channel = none → (history.1.edfOutputs channel).queue = []

/-- The line of a channel loaded beforehand stays sorted. -/
theorem Merging.onChannel_sorted {start : State} {history : State × Past State Action}
    (merging : Merging start history) (loaded : start.Loaded)
    (unsent : observed sends history.2 = []) (channel : EdfChannel) :
    (history.1.onChannel channel).Pairwise fun earlier later => earlier.deadline ≤ later.deadline := by
  have line := merging.line channel
  rw [sentOf, unsent, List.filterMap_nil, List.append_nil] at line
  have whole := loaded channel
  rw [← line] at whole
  exact (List.pairwise_append.mp whole).2.1

theorem observed_prefix_nil {β : Type} {observe : State → Action → Option β}
    {past : Past State Action} {state : State} {action : Action}
    (nothing : observed observe (past ++ [(state, action)]) = []) :
    observed observe past = [] ∧ observe state action = none := by
  rw [observed_append] at nothing
  obtain ⟨before, now⟩ := List.append_eq_nil_iff.mp nothing
  exact ⟨before, Option.toList_eq_nil_iff.mp now⟩

/-- A buffered packet with a least deadline comes before everything left. -/
theorem select_least {start state : State} {past : Past State Action}
    (merging : Merging start (state, past)) (loaded : start.Loaded)
    (unsent : observed sends past = []) (sorting : Sorting (state, past))
    (place : state.reorder.pc = .select) {selected : EdfChannel} {ordered : OrderedPacket}
    (held : state.reorder.buffers selected = some ordered)
    (least : ∀ other, ∀ packet ∈ state.reorder.buffers other, ordered.deadline ≤ packet.deadline)
    (channel : EdfChannel) :
    ∀ packet ∈ state.onChannel channel, ordered.packet.deadline ≤ packet.deadline := by
  have own : state.OwnBuffers := merging.own
  have sortedLine := merging.onChannel_sorted loaded unsent channel
  intro packet member
  rw [← own.deadline held]
  cases found : state.reorder.buffers channel with
  | none =>
      have empty : (state.edfOutputs channel).queue = [] := sorting.filled place channel found
      have nothing : state.onChannel channel = [] := by
        simp [onChannel, Reorder.handOf, Reorder.bufferOf, place, found, empty]
      rw [nothing] at member
      cases member
  | some head =>
      have first : ordered.deadline ≤ head.packet.deadline := by
        rw [← own.deadline found]
        exact least channel head found
      have opened : state.onChannel channel = head.packet :: (state.edfOutputs channel).queue := by
        simp [onChannel, Reorder.handOf, Reorder.bufferOf, place, found]
      rw [opened] at sortedLine member
      rcases List.mem_cons.mp member with same | behind
      · rw [same]
        exact first
      · exact first.trans ((List.pairwise_cons.mp sortedLine).1 packet behind)

theorem ReorderMove.onChannel_subset {state next : State} {action : Action}
    (own : state.OwnBuffers) (move : ReorderMove state action next) (channel : EdfChannel) :
    ∀ packet ∈ next.onChannel channel, packet ∈ state.onChannel channel := by
  intro packet member
  rw [← move.line own channel]
  exact List.mem_append_right _ member

/-- What a step forwards is the packet in hand. -/
theorem ReorderMove.forwards_hand {state next : State} {action : Action}
    (move : ReorderMove state action next) :
    ∀ ordered ∈ state.forwards action, state.reorder.pc = .forward ordered := by
  cases move with
  | forward place =>
      intro ordered same
      simp only [forwards, place, Option.mem_def, Option.some.injEq] at same
      exact same ▸ place
  | begin _ _ | quit _ _ | skip _ _ | take _ _ _ | filled _ | idle _ _ | select _ _ _ => nofun

theorem ReorderMove.sorting {start state next : State} {past : Past State Action} {action : Action}
    (merging : Merging start (state, past)) (loaded : start.Loaded)
    (unsent : observed sends past = []) (sorting : Sorting (state, past))
    (move : ReorderMove state action next) : Sorting (next, past ++ [(state, action)]) := by
  have own : state.OwnBuffers := merging.own
  have shrinks := move.onChannel_subset own
  refine ⟨?_, ?_, ?_, ?_, ?_⟩
  · rw [observed_append]
    refine List.pairwise_append.mpr ⟨sorting.sorted, ?_, fun earlier old later new => ?_⟩
    · cases state.forwards action with
      | none => exact List.Pairwise.nil
      | some ordered => exact List.pairwise_singleton _ _
    · -- the packet in hand is the head of the line of its channel
      have place := move.forwards_hand later (Option.mem_toList.mp new)
      obtain ⟨channel, made⟩ := own.hand later place
      refine sorting.before earlier old channel later.packet ?_
      have priority : later.priority = channel.priority := by
        rw [made]
        rfl
      simp [onChannel, Reorder.handOf, place, priority]
  · refine forall_observed ?_ ?_
    · intro ordered old channel packet member
      exact sorting.before ordered old channel packet (shrinks channel packet member)
    · intro ordered now channel packet member
      have place := move.forwards_hand ordered now
      exact sorting.ready ordered place channel packet (shrinks channel packet member)
  · intro ordered here channel packet member
    have kept := shrinks channel packet member
    cases move with
    | begin _ _ | quit _ _ | skip _ _ | take _ _ _ | filled _ | idle _ _ | forward _ => cases here
    | select place held least =>
        cases here
        exact select_least merging loaded unsent sorting place held least channel packet kept
  · intro rest here channel looked vacant
    cases move with
    | quit _ _ | filled _ | idle _ _ | select _ _ _ | forward _ => cases here
    | begin _ _ =>
        cases here
        exact absurd channel.mem_all looked
    | @skip filling others place full =>
        cases here
        by_cases same : channel = filling
        · subst same
          rcases full with occupied | empty
          · exact absurd vacant occupied
          · exact empty
        · exact sorting.looked _ place channel (List.not_mem_cons_of_ne_of_not_mem same looked) vacant
    | @take filling others packet remaining place empty front =>
        cases here
        change Function.update state.reorder.buffers filling (some (.of filling packet)) channel =
          none at vacant
        have elsewhere : channel ≠ filling := by
          intro same
          rw [same, Function.update_self] at vacant
          cases vacant
        rw [Function.update_of_ne elsewhere] at vacant
        have before := sorting.looked _ place channel
          (List.not_mem_cons_of_ne_of_not_mem elsewhere looked) vacant
        change (Function.update state.edfOutputs filling remaining channel).queue = []
        rw [Function.update_of_ne elsewhere]
        exact before
  · intro here channel vacant
    cases move with
    | begin _ _ | quit _ _ | skip _ _ | take _ _ _ | idle _ _ | select _ _ _ | forward _ => cases here
    | filled place => exact sorting.looked [] place channel List.not_mem_nil vacant

theorem step_sorting {start : State} {history next : State × Past State Action} {action : Action}
    (merging : Merging start history) (loaded : start.Loaded)
    (sorting : observed sends history.2 = [] → Sorting history)
    (stepped : recorded step history action = some next) :
    observed sends next.2 = [] → Sorting next := by
  obtain ⟨state, past⟩ := history
  obtain ⟨after, later⟩ := next
  obtain ⟨moved, rfl⟩ := recorded_eq_some.mp stepped
  intro nothing
  obtain ⟨unsent, still⟩ := observed_prefix_nil nothing
  have before := sorting unsent
  rcases step_merge moved with move | feeds
  · exact move.sorting merging loaded unsent before
  · have same (channel : EdfChannel) : after.onChannel channel = state.onChannel channel := by
      rw [feeds.onChannel, still, Option.bind_none, Option.toList_none, List.append_nil]
    have queues (channel : EdfChannel) :
        (after.edfOutputs channel).queue = (state.edfOutputs channel).queue := by
      rw [feeds.outputs, still, Option.bind_none, Option.toList_none, List.append_nil]
    refine ⟨?_, ?_, ?_, ?_, ?_⟩
    · rw [observed_none feeds.quiet]
      exact before.sorted
    · rw [observed_none feeds.quiet]
      intro ordered old channel
      rw [same]
      exact before.before ordered old channel
    · rw [feeds.reorder]
      intro ordered place channel
      rw [same]
      exact before.ready ordered place channel
    · rw [feeds.reorder]
      intro rest place channel looked vacant
      rw [queues]
      exact before.looked rest place channel looked vacant
    · rw [feeds.reorder]
      intro place channel vacant
      rw [queues]
      exact before.filled place channel vacant

/-! ## The whole merge -/

/-- Everything loaded was forwarded, in order of deadlines. -/
def Merged (start : State) (forwarded : List OrderedPacket) : Prop :=
  (forwarded.map OrderedPacket.packet).Pairwise (fun earlier later => earlier.deadline ≤ later.deadline) ∧
    (forwarded.map OrderedPacket.packet).Perm
      (EdfChannel.all.flatMap fun channel => (start.edfOutputs channel).queue)

/-- Steps of the re-ordering stage alone. -/
def Reorders : Action → Prop
  | .reorder | .forward _ => True
  | _ => False

/-- The re-ordering stage started in `start` merges the three channels. -/
structure Merges (start : State) (history : State × Past State Action) : Prop where
  earliest : ∀ ordered, history.1.reorder.pc = .forward ordered → ∀ channel,
    ∀ other ∈ history.1.reorder.buffers channel, ordered.packet.deadline ≤ other.packet.deadline
  inOrder : ∀ channel, forwardedOf channel (observed forwards history.2) <+:
    (start.edfOutputs channel).queue ++ sentOf channel history.2
  sorted : start.Loaded → observed sends history.2 = [] →
    (observed forwards history.2).Pairwise
      fun earlier later => earlier.packet.deadline ≤ later.packet.deadline
  merged : start.Loaded → observed sends history.2 = [] →
    (∀ channel, history.1.onChannel channel = []) → Merged start (observed forwards history.2)
  finishes : start.Loaded → observed sends history.2 = [] → history.1.running = true →
    ∃ actions final, (∀ action ∈ actions, Reorders action) ∧
      TransitionSystem.run (recorded step) history actions = some final ∧
      Merged start (observed forwards final.2)

/-- Packets of the three channels can be told apart by their class. -/
theorem perm_channels {forwarded : List OrderedPacket}
    (made : ∀ ordered ∈ forwarded, ∃ channel, ordered = .of channel ordered.packet) :
    (forwarded.map OrderedPacket.packet).Perm
      (EdfChannel.all.flatMap fun channel => forwardedOf channel forwarded) := by
  induction forwarded with
  | nil => simp [forwardedOf]
  | cons ordered rest ih =>
      obtain ⟨channel, here⟩ := made ordered List.mem_cons_self
      have tail := ih fun other member => made other (List.mem_cons_of_mem _ member)
      have priority : ordered.priority = channel.priority := by
        rw [here]
        rfl
      have added (other : EdfChannel) : forwardedOf other (ordered :: rest) =
          (if other = channel then [ordered.packet] else []) ++ forwardedOf other rest := by
        by_cases same : other = channel
        · simp [forwardedOf, priority, same]
        · have elsewhere : channel.priority ≠ other.priority :=
            fun back => same (EdfChannel.priority_injective back).symm
          simp [forwardedOf, priority, same, elsewhere]
      have grown := tail.cons ordered.packet
      rw [List.map_cons]
      refine grown.trans ?_
      simp only [EdfChannel.all, List.flatMap_cons, List.flatMap_nil, List.append_nil, added]
      cases channel with
      | high => simp
      | medium =>
          simp only [reduceCtorEq, if_false, if_true, List.nil_append, List.singleton_append]
          exact List.perm_middle.symm
      | low =>
          simp only [reduceCtorEq, if_false, if_true, List.nil_append, List.singleton_append]
          rw [← List.append_assoc, ← List.append_assoc]
          exact List.perm_middle.symm

theorem Merging.merged {start : State} {history : State × Past State Action}
    (merging : Merging start history) (unsent : observed sends history.2 = [])
    (sorting : Sorting history) (drained : ∀ channel, history.1.onChannel channel = []) :
    Merged start (observed forwards history.2) := by
  have whole (channel : EdfChannel) :
      forwardedOf channel (observed forwards history.2) = (start.edfOutputs channel).queue := by
    have line := merging.line channel
    rwa [drained, sentOf, unsent, List.filterMap_nil, List.append_nil, List.append_nil] at line
  refine ⟨List.pairwise_map.mpr sorting.sorted, ?_⟩
  have apart := perm_channels merging.made
  simp only [whole] at apart
  exact apart

/-! ## The merge comes to an end -/

end State

/-- The steps until the next packet is in hand, if one is left. -/
def ReorderPc.distance : ReorderPc → Nat
  | .top => 6
  | .fill rest => 2 + rest.length
  | .select => 1
  | .forward _ | .returned => 0

namespace State

def load (state : State) : Nat :=
  (EdfChannel.all.map fun channel => (state.onChannel channel).length).sum

def work (state : State) : Nat := 8 * state.load + state.reorder.pc.distance

theorem ReorderMove.load {state next : State} {action : Action} (own : state.OwnBuffers)
    (move : ReorderMove state action next) :
    (state.forwards action).toList.length + next.load = state.load := by
  have made : ∀ ordered ∈ (state.forwards action).toList,
      ∃ channel, ordered = .of channel ordered.packet :=
    fun ordered member => move.forwards_own own ordered (Option.mem_toList.mp member)
  have apart := (perm_channels made).length_eq
  have line (channel : EdfChannel) := congrArg List.length (move.line own channel)
  simp only [List.length_append] at line
  have high := line .high
  have medium := line .medium
  have low := line .low
  simp only [EdfChannel.all, List.length_map, List.flatMap_cons, List.flatMap_nil,
    List.length_append, List.length_nil] at apart
  simp only [State.load, EdfChannel.all, List.map_cons, List.map_nil, List.sum_cons, List.sum_nil]
  omega

theorem ReorderMove.work_lt {start state next : State} {past : Past State Action} {action : Action}
    (merging : Merging start (state, past)) (sorting : Sorting (state, past))
    (running : state.running = true) {channel : EdfChannel} (left : state.onChannel channel ≠ [])
    (move : ReorderMove state action next) : next.work < state.work := by
  have load := move.load merging.own
  cases move with
  | begin place _ =>
      simp only [work, place, ReorderPc.distance, EdfChannel.all, forwards, Option.toList_none,
        List.length_cons, List.length_nil] at load ⊢
      omega
  | quit place stopped =>
      rw [stopped] at running
      cases running
  | skip place _ | filled place | take place _ _ | select place _ _ =>
      simp only [work, place, ReorderPc.distance, forwards, Option.toList_none, List.length_cons,
        List.length_nil] at load ⊢
      omega
  | idle place empty =>
      have vacant : (state.edfOutputs channel).queue = [] :=
        sorting.filled place channel (empty channel)
      refine absurd ?_ left
      simp [onChannel, Reorder.handOf, Reorder.bufferOf, place, empty, vacant]
  | forward place =>
      simp only [work, place, ReorderPc.distance, forwards, Option.toList_some,
        List.length_singleton] at load ⊢
      omega

/-- While the scheduler runs, the re-ordering stage has a next step. -/
theorem reorders_enabled {state : State} (own : state.OwnBuffers) (running : state.running = true) :
    ∃ action next, Reorders action ∧ state.step action = some next := by
  cases place : state.reorder.pc with
  | top => exact ⟨.reorder, _, trivial, by simp only [step, runReorder, place]; rfl⟩
  | fill rest =>
      cases rest with
      | nil => exact ⟨.reorder, _, trivial, by simp only [step, runReorder, place]; rfl⟩
      | cons channel rest =>
          cases held : state.reorder.buffers channel with
          | some ordered =>
              exact ⟨.reorder, _, trivial, by simp only [step, runReorder, place, held]; rfl⟩
          | none =>
              cases received : (state.edfOutputs channel).tryRecv with
              | ok message =>
                  exact ⟨.reorder, _, trivial,
                    by simp only [step, runReorder, place, held, received]; rfl⟩
              | error problem =>
                  exact ⟨.reorder, _, trivial,
                    by simp only [step, runReorder, place, held, received]; rfl⟩
  | select => exact ⟨.reorder, _, trivial, by simp only [step, runReorder, place]; rfl⟩
  | forward ordered =>
      exact ⟨.forward true, _, trivial, by simp only [step, forwardReorder, place]; rfl⟩
  | returned =>
      rw [own.stopped place] at running
      cases running

theorem step_reorders {state next : State} {action : Action} (reorders : Reorders action)
    (stepped : state.step action = some next) : ReorderMove state action next := by
  cases action with
  | reorder => exact runReorder_moves stepped
  | forward room => exact forwardReorder_moves stepped
  | arrive | disconnect | tick | stop | dispatch | run | pop | await => exact absurd reorders id

/-- The re-ordering stage alone forwards everything that is left. -/
theorem merge_finishes {start : State} (loaded : start.Loaded)
    {history : State × Past State Action} (merging : Merging start history)
    (unsent : observed sends history.2 = []) (sorting : Sorting history)
    (running : history.1.running = true) :
    ∃ actions final, (∀ action ∈ actions, Reorders action) ∧
      TransitionSystem.run (recorded step) history actions = some final ∧
      Merged start (observed forwards final.2) := by
  induction size : history.1.work using Nat.strong_induction_on generalizing history with
  | _ size ih =>
      subst size
      by_cases drained : ∀ channel, history.1.onChannel channel = []
      · exact ⟨[], history, by simp, rfl, merging.merged unsent sorting drained⟩
      · obtain ⟨channel, left⟩ := not_forall.mp drained
        obtain ⟨state, past⟩ := history
        obtain ⟨action, next, reorders, stepped⟩ := reorders_enabled merging.own running
        have move := step_reorders reorders stepped
        have taken : recorded step (state, past) action =
            some (next, past ++ [(state, action)]) := recorded_eq_some.mpr ⟨stepped, rfl⟩
        have quiet : observed sends (past ++ [(state, action)]) = [] := by
          rw [observed_none move.unsent]
          exact unsent
        obtain ⟨actions, final, only, ran, merged⟩ := ih next.work
          (move.work_lt merging sorting running left) (step_merging merging taken) quiet
          (move.sorting merging loaded unsent sorting) (move.running.trans running) rfl
        refine ⟨action :: actions, final, fun other member => ?_,
          run_cons_eq_some.mpr ⟨_, taken, ran⟩, merged⟩
        rcases List.mem_cons.mp member with same | later
        · exact same ▸ reorders
        · exact only other later

/-- The re-ordering stage is entered in this state. -/
def enterReorder (state : State) : State := { state with reorder := .initial }

theorem enter_merging (state : State) : Merging state.enterReorder (state.enterReorder, []) where
  own := ⟨nofun, nofun, nofun⟩
  made := nofun
  line _ := (List.append_nil _).symm
  earliest := nofun

theorem enter_sorting (state : State) : Sorting (state.enterReorder, []) where
  sorted := List.Pairwise.nil
  before := nofun
  ready := nofun
  looked := nofun
  filled := nofun

structure KeptMerging (start : State) (history : State × Past State Action) : Prop where
  merging : Merging start history
  sorting : start.Loaded → observed sends history.2 = [] → Sorting history

theorem step_keptMerging {start : State} {history next : State × Past State Action} {action : Action}
    (kept : KeptMerging start history) (stepped : recorded step history action = some next) :
    KeptMerging start next where
  merging := step_merging kept.merging stepped
  sorting loaded := step_sorting kept.merging loaded (kept.sorting loaded) stepped

theorem enter_keptMerging (state : State) : KeptMerging state.enterReorder (state.enterReorder, []) where
  merging := enter_merging state
  sorting _ _ := enter_sorting state

theorem KeptMerging.merges {start : State} {history : State × Past State Action}
    (kept : KeptMerging start history) : Merges start history where
  earliest := kept.merging.earliest
  inOrder channel := ⟨_, kept.merging.line channel⟩
  sorted loaded unsent := (kept.sorting loaded unsent).sorted
  merged loaded unsent drained := kept.merging.merged unsent (kept.sorting loaded unsent) drained
  finishes loaded unsent running :=
    merge_finishes loaded kept.merging unsent (kept.sorting loaded unsent) running

end State

end EdfPipeline.McEdf
