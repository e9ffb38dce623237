import EdfPipeline.Ingress.Visits
import EdfPipeline.Outputs

/-!
# Full queues

A refusal of the EDF queue leaves the loop over the sockets but not the visit:
the visit goes on as long as it has credit. It stops there only where the
refused packet took the last of it.
-/

set_option autoImplicit false

namespace EdfPipeline.Ingress

/-- The answer of the EDF queue, if it is asked, is that there is room. -/
def Action.HasRoom : Action → Prop
  | .recv _ room => room = true
  | _ => True

namespace State

/-- What the current visit has handed to the EDF queue of its class. -/
def visitLog (state : State) (priority : Priority) : List (Packet × Bool) :=
  let log := (state.queues priority).log
  log.drop (log.length - state.consumed)

/-- Every packet found room. -/
def Accepted (entries : List (Packet × Bool)) : Prop := ∀ entry ∈ entries, entry.2 = true

instance (entries : List (Packet × Bool)) : Decidable (Accepted entries) :=
  inferInstanceAs (Decidable (∀ entry ∈ entries, entry.2 = true))

/-- Nothing is read in a visit after a refusal, which is counted, so that at most
one is. -/
structure StopsVisit (state : State) : Prop where
  counted : ∀ priority, (state.queues priority).Counted
  last : ∀ visit ∈ state.pc.visiting, Accepted (state.visitLog visit.priority).dropLast
  once : ∀ visit ∈ state.pc.visiting,
    ((state.visitLog visit.priority).filter fun entry => !entry.2).length ≤ 1

instance (state : State) : Decidable state.StopsVisit :=
  haveI : ∀ priority, Decidable (state.queues priority).Counted :=
    fun _ => inferInstanceAs (Decidable (_ = _))
  decidable_of_iff (_ ∧ _ ∧ _) ⟨fun ⟨counted, last, once⟩ => ⟨counted, last, once⟩,
    fun stops => ⟨stops.counted, stops.last, stops.once⟩⟩

/-- A packet is refused only if the visit has no credit left for another one, or
the scheduler is shutting down. -/
def RefusedLast (state : State) : Action → Prop
  | .recv (.datagram (_ :: _)) false =>
      match state.pc with
      | .receive _ visit (_ :: _) _ => visit.localDeficit = 1 ∨ state.running = false
      | _ => True
  | _ => True

theorem refused_le_one {entries : List (Packet × Bool)} (accepted : Accepted entries.dropLast) :
    (entries.filter fun entry => !entry.2).length ≤ 1 := by
  induction entries using List.reverseRecOn with
  | nil => exact Nat.zero_le 1
  | append_singleton earlier last ih =>
      rw [List.dropLast_concat] at accepted
      have none_earlier : earlier.filter (fun entry => !entry.2) = [] :=
        List.filter_eq_nil_iff.mpr fun entry member => by simp [accepted entry member]
      rw [List.filter_append, none_earlier, List.nil_append]
      exact List.length_filter_le _ [last]

end State

/-- The sockets to come are sockets of the visit. -/
def Pc.Within : Pc → Prop
  | .poll _ current rest _ | .receive _ current rest _ => rest <:+ current.sockets
  | _ => True

namespace State

/-- What the loops over the credit and over the sockets know of the current visit. -/
structure Stopping (state : State) : Prop where
  counted : ∀ priority, (state.queues priority).Counted
  left : ∀ visit ∈ state.pc.reading, visit.localDeficit ≠ 0
  accepted : ∀ visit ∈ state.pc.visiting, Accepted (state.visitLog visit.priority) ∨
    Accepted (state.visitLog visit.priority).dropLast ∧ state.pc.reading = none ∧
      (visit.localDeficit = 0 ∨ state.running = false)
  within : state.pc.Within

theorem visiting_of_reading {pc : Pc} {visit : Visit} (reading : pc.reading = some visit) :
    pc.visiting = some visit := by
  cases pc with
  | receive round current rest readAny => exact reading
  | _ => cases reading

theorem initial_stopping : initial.Stopping where
  counted priority := OutputQueue.counted_initial
  left := by simp [initial, Pc.reading]
  accepted := by simp [initial, Pc.visiting]
  within := trivial

theorem Stopping.stopsVisit {state : State} (stopping : state.Stopping) : state.StopsVisit := by
  have last : ∀ visit ∈ state.pc.visiting, Accepted (state.visitLog visit.priority).dropLast := by
    intro visit here
    rcases stopping.accepted visit here with all | ⟨earlier, _⟩
    · intro entry member
      exact all entry (List.mem_of_mem_dropLast member)
    · exact earlier
  exact ⟨stopping.counted, last, fun visit here => refused_le_one (last visit here)⟩

/-- Outside of visits there is nothing to know. -/
theorem Stopping.away {state next : State} (stopping : state.Stopping)
    (queues : next.queues = state.queues) (away : next.pc.visiting = none)
    (unread : next.pc.reading = none) (within : next.pc.Within) : next.Stopping where
  counted := queues ▸ stopping.counted
  left := by simp [unread]
  accepted := by simp [away]
  within := within

/-- A visit goes on, and reads only with credit left. -/
theorem Stopping.goto {state : State} (stopping : state.Stopping) {pc : Pc}
    (same : pc.visiting = state.pc.visiting)
    (reads : ∀ visit ∈ pc.reading, visit.localDeficit ≠ 0 ∧ state.running = true)
    (within : pc.Within) : { state with pc }.Stopping where
  counted := stopping.counted
  left := fun visit here => (reads visit here).1
  accepted := by
    intro visit here
    simp only [same] at here
    rcases stopping.accepted visit here with all | ⟨earlier, _, done⟩
    · exact .inl all
    · refine .inr ⟨earlier, Option.eq_none_iff_forall_not_mem.mpr fun current reading => ?_, done⟩
      have visits := (visiting_of_reading reading).symm.trans (same.trans here)
      obtain ⟨left, running⟩ := reads current reading
      cases visits
      rcases done with used | stopped
      · exact left used
      · exact Bool.false_ne_true (stopped.symm.trans running)
  within := within

theorem log_trySend (room : Nat → Bool) (packet : Packet) (output : OutputQueue) :
    (output.trySend room packet).log = output.log ++ [(packet, room output.log.length)] := by
  unfold OutputQueue.trySend
  split
  · rename_i free
    rw [free]
  · rename_i full
    rw [Bool.eq_false_of_not_eq_true full]

theorem visitLog_read (state : State) (round : Round) (visit : Visit) (rest : List Socket)
    (payload : List UInt8) (room : Bool) :
    ∃ packet, (state.read round visit rest payload room).visitLog visit.priority =
      state.visitLog visit.priority ++ [(packet, room)] := by
  refine ⟨Packet.fromBuffer state.nextPacketId state.clock visit.priority payload
    (((state.flowStates visit.priority).map FlowState.latencyBudget).getD 0), ?_⟩
  simp only [visitLog, State.read, PriorityTable.set_self, log_trySend, List.length_append,
    List.length_singleton, Nat.add_sub_add_right]
  exact List.drop_append_of_le_length (Nat.sub_le _ _)

theorem Stopping.read {state : State} (stopping : state.Stopping) {round : Round} {visit : Visit}
    {socket : Socket} {rest : List Socket} {readAny : Bool} {payload : List UInt8} {room : Bool}
    (place : state.pc = .receive round visit (socket :: rest) readAny)
    (last : room = false → visit.localDeficit = 1 ∨ state.running = false) :
    (state.read round visit rest payload room).Stopping := by
  have visiting : state.pc.visiting = some visit := by rw [place]; rfl
  have reading : state.pc.reading = some visit := by rw [place]; rfl
  have now : (state.read round visit rest payload room).pc.visiting =
      some { visit with localDeficit := visit.localDeficit - 1 } := by
    cases room <;> rfl
  have unread : (state.read round visit rest payload room).pc.reading = none := by
    cases room <;> rfl
  obtain ⟨packet, log⟩ := visitLog_read state round visit rest payload room
  have before : Accepted (state.visitLog visit.priority) := by
    rcases stopping.accepted visit visiting with all | ⟨_, none_, _⟩
    · exact all
    · cases none_.symm.trans reading
  refine ⟨counted_trySend stopping.counted _ _ _, by simp [unread], ?_, ?_⟩
  · intro current here
    rw [now] at here
    cases here
    simp only [log]
    cases room with
    | true =>
        refine .inl ?_
        intro entry member
        rcases List.mem_append.mp member with earlier | new
        · exact before entry earlier
        · rw [List.mem_singleton.mp new]
    | false =>
        refine .inr ⟨?_, unread, (last rfl).imp_left fun one => ?_⟩
        · rw [List.dropLast_concat]
          exact before
        · rw [one]
  · have within := stopping.within
    rw [place] at within
    cases room with
    | true => exact (List.suffix_cons socket rest).trans within
    | false => trivial

theorem Stopping.enter {state : State} (stopping : state.Stopping) (round : Round)
    (priority : Priority) (sockets : List Socket) (flow : FlowState) :
    (state.enter round priority sockets flow).Stopping := by
  simp only [State.enter]
  split
  · exact stopping.away rfl rfl rfl trivial
  · refine ⟨stopping.counted, by simp [Pc.reading], fun _ _ => .inl ?_, trivial⟩
    simp [visitLog, Accepted]

theorem step_stopping {state next : State} {action : Action} (stopping : state.Stopping)
    (last : state.RefusedLast action) (stepped : state.step action = some next) :
    next.Stopping := by
  cases step_move stepped with
  | addSocket socket priority latencyBudget quantum => exact { stopping with }
  | tick elapsed => exact { stopping with }
  | stop =>
      refine { stopping with accepted := ?_ }
      intro visit here
      exact (stopping.accepted visit here).imp_right fun ⟨earlier, unread, _⟩ =>
        ⟨earlier, unread, .inr rfl⟩
  | idle place => exact stopping
  | quit place stopped => exact stopping.away rfl rfl rfl trivial
  | begin place running => exact stopping.away rfl rfl rfl trivial
  | skip place running missing more => exact stopping.away rfl rfl rfl trivial
  | enter place running next snapshot registered =>
      rename_i round priority sockets flow
      exact stopping.enter round priority sockets flow
  | finish place ends => exact stopping.away rfl rfl rfl trivial
  | look place running left =>
      exact stopping.goto (place ▸ rfl) (by simp [Pc.reading]) (List.suffix_refl _)
  | socket place filled running left =>
      have within := stopping.within
      rw [place] at within
      refine stopping.goto (place ▸ rfl) ?_ within
      intro current here
      cases here
      exact ⟨left, running⟩
  | again place => exact stopping.goto (place ▸ rfl) (by simp [Pc.reading]) trivial
  | dry place nothing =>
      have within := stopping.within
      rw [place] at within
      exact stopping.goto (place ▸ rfl) (by simp [Pc.reading]) ((List.suffix_cons _ _).trans within)
  | read place =>
      rename_i round visit socket rest readAny byte bytes room
      refine stopping.read place ?_
      intro refused
      subst refused
      simpa only [RefusedLast, place] using last
  | leave place spent => exact stopping.away rfl rfl rfl trivial

theorem Stopping.reads_again {state : State} (stopping : state.Stopping) {round : Round}
    {visit : Visit} {socket : Socket} {rest : List Socket} {readAny : Bool} {payload : List UInt8}
    (place : state.pc = .receive round visit (socket :: rest) readAny)
    (more : visit.localDeficit ≠ 1) (running : state.running = true) :
    ∃ later : List Action, (∀ other ∈ later, other.HasRoom) ∧
      ¬ TransitionSystem.Throughout step StopsVisit
        (state.read round visit rest payload false) later := by
  have left : visit.localDeficit ≠ 0 := stopping.left visit (place ▸ rfl)
  have credit : visit.localDeficit - 1 ≠ 0 := by omega
  obtain ⟨first, others, sockets⟩ : ∃ first others, visit.sockets = first :: others := by
    have within := stopping.within
    rw [place] at within
    cases same : visit.sockets with
    | nil => simp [Pc.Within, same] at within
    | cons first others => exact ⟨first, others, rfl⟩
  let spent : Visit := { visit with localDeficit := visit.localDeficit - 1 }
  let refused := state.read round visit rest payload false
  let reading : State := { refused with pc := .receive round spent (first :: others) false }
  have looks : refused.step .run =
      some { refused with pc := .poll round spent (first :: others) false } := by
    simp [refused, spent, step, runStep, State.read, running, credit, sockets]
  have polls : ({ refused with pc := .poll round spent (first :: others) false } : State).step .run =
      some reading := by
    simp [reading, refused, spent, step, runStep, State.read, running, credit]
  have reads : reading.step (.recv (.datagram [0]) true) =
      some (reading.read round spent others [0] true) := rfl
  refine ⟨[.run, .run, .recv (.datagram [0]) true], by simp [Action.HasRoom], ?_⟩
  intro always
  have final : (reading.read round spent others [0] true).StopsVisit :=
    ((always.2 _ looks).2 _ polls).2 _ reads
  obtain ⟨packet, log⟩ := visitLog_read state round visit rest payload false
  obtain ⟨other, longer⟩ := visitLog_read reading round spent others [0] true
  have earlier := final.last { spent with localDeficit := spent.localDeficit - 1 } rfl
  simp only [spent] at longer
  rw [longer, List.dropLast_concat] at earlier
  have member : (packet, false) ∈ reading.visitLog visit.priority := by
    change (packet, false) ∈ refused.visitLog visit.priority
    rw [log]
    exact List.mem_append_right _ (List.mem_singleton.mpr rfl)
  exact Bool.false_ne_true (earlier (packet, false) member)

theorem refusedLast_of_hasRoom {state : State} {action : Action} (free : action.HasRoom) :
    state.RefusedLast action := by
  cases action with
  | recv outcome room =>
      cases free
      unfold RefusedLast
      split
      · rename_i same
        cases same
      · trivial
  | _ => trivial

theorem refusedLast_of_disabled {state : State} {action : Action}
    (disabled : state.step action = none) : state.RefusedLast action := by
  unfold RefusedLast
  split
  · rename_i byte bytes
    split
    · rename_i place
      simp [step, recvStep, place] at disabled
    · trivial
  · trivial

theorem refusedLast_of_dry {state : State} {outcome : RecvOutcome} {room : Bool}
    (nothing : Dry outcome) : state.RefusedLast (.recv outcome room) := by
  unfold RefusedLast
  split
  · rename_i byte bytes same
    cases same
    exact absurd rfl (nothing byte bytes)
  · trivial

/-- After a refusal with credit left, another datagram is read. -/
theorem reads_on {state next : State} {action : Action} (stopping : state.Stopping)
    (stepped : state.step action = some next) (violates : ¬ state.RefusedLast action) :
    ∃ later : List Action, (∀ other ∈ later, other.HasRoom) ∧
      ¬ TransitionSystem.Throughout step StopsVisit next later := by
  cases step_move stepped with
  | read place =>
      rename_i round visit socket rest readAny byte bytes room
      cases room with
      | true => exact absurd trivial violates
      | false =>
          simp only [RefusedLast, place, not_or] at violates
          exact stopping.reads_again place violates.1 (Bool.eq_true_of_not_eq_false violates.2)
  | dry place nothing =>
      rename_i round visit socket rest readAny outcome room
      exact absurd (refusedLast_of_dry nothing) violates
  | _ => exact absurd trivial violates

end State

/-- Every run stops its visits at the first refusal, also if it is broken off
anywhere and goes on with room in the queues, exactly if every refusal comes at
the end of the visit's credit or of the scheduler. -/
theorem stopsVisit_iff_refusedLast (actions : List Action) :
    TransitionSystem.ThroughoutFinished State.step Action.HasRoom State.StopsVisit State.initial
        actions ↔
      TransitionSystem.Along State.step State.RefusedLast State.initial actions :=
  TransitionSystem.throughoutFinished_iff_along State.step_stopping State.Stopping.stopsVisit
    State.refusedLast_of_hasRoom State.refusedLast_of_disabled State.reads_on
    State.initial_stopping actions

/-! ## One visit, two drops -/

def refusedTwice : List Action :=
  [.addSocket 0 .high (Duration.fromMillis 1) 2, .run, .run, .run, .run,
    .recv (.datagram [1]) false, .run, .run, .recv (.datagram [2]) false]

/-- The queue is full, and the visit drops both datagrams its credit lets it read. -/
theorem two_drops_in_one_visit :
    ¬ TransitionSystem.Throughout State.step State.StopsVisit State.initial refusedTwice ∧
      (run State.initial refusedTwice).map (fun state => (state.queues .high).dropCounter) =
        some 2 := by
  decide +kernel

end EdfPipeline.Ingress
