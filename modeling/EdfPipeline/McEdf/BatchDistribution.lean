import EdfPipeline.McEdf.ClassPreservation
import Mathlib.Algebra.BigOperators.Group.List.Basic

/-!
# Distributing a batch of High packets

The dispatcher chooses the channels of a whole batch before it records any of
its packets, so all of them go to one channel. Choosing and recording one packet
at a time gives the same only if that channel still has the least score when the
last packet is due.
-/

set_option autoImplicit false

namespace EdfPipeline.McEdf

open TransitionSystem

def EdfChannel.index : EdfChannel → Nat
  | .high => 0
  | .medium => 1
  | .low => 2

namespace HighDistributionStats

def recordAll (stats : HighDistributionStats) (channels : List (EdfChannel × Batched)) :
    HighDistributionStats :=
  channels.foldl (fun stats entry => stats.recordDistributionWithSlack entry.1 entry.2.deadlineSlack)
    stats

/-- The channels of a batch and the statistics after it when each packet is
recorded before the next one is due. -/
def oneAtATime : HighDistributionStats → List Batched →
    List (EdfChannel × Batched) × HighDistributionStats
  | stats, [] => ([], stats)
  | stats, batched :: rest =>
      let channel := stats.findBestChannel
      let later := oneAtATime (stats.recordDistributionWithSlack channel batched.deadlineSlack) rest
      ((channel, batched) :: later.1, later.2)

/-- The score of the channel if it had these packets too. -/
def scoreWith (stats : HighDistributionStats) (channel : EdfChannel) (batch : List Batched) : Nat :=
  (stats.packetCount channel + batch.length) * 1000 +
    (stats.deadlineSum channel + (batch.map Batched.deadlineSlack).sum).asMicros

/-- Scores count up to the largest `i64`. -/
def cap (score : Nat) : Nat := min score (2 ^ 63 - 1)

/-- With this score the channel is the best of the three: the others score more,
or as much at a later index. -/
def Leads (stats : HighDistributionStats) (channel : EdfChannel) (score : Nat) : Prop :=
  ∀ other, other ≠ channel → cap score < cap (stats.score other) ∨
    cap score = cap (stats.score other) ∧ channel.index < other.index

/-- The channel best for the first packet leads with all packets but the last. -/
def StillLeads (stats : HighDistributionStats) (batch : List Batched) : Prop :=
  stats.Leads stats.findBestChannel (stats.scoreWith stats.findBestChannel batch.dropLast)

end HighDistributionStats

/-- The dispatcher is between the choice of the channels and the end of the batch. -/
def DispatcherPc.Distributing : DispatcherPc → Prop
  | .assign _ | .send _ | .recordDistribution _ _ _ => True
  | _ => False

namespace State

/-- What the dispatcher sends, and the channel it sends it on. -/
def sending (state : State) : Action → Option (EdfChannel × Batched)
  | .dispatch =>
      match state.dispatcher with
      | .send (entry :: _) => some entry
      | _ => none
  | _ => none

def assigning (state : State) (batch : List Batched) : State :=
  { state with dispatcher := .assign batch }

/-- The dispatcher distributes a batch while the other threads take any steps. -/
structure Distribution (state : State) (batch : List Batched) (actions : List Action)
    (history : State × Past State Action) : Prop where
  ran : TransitionSystem.run (recorded step) (state.assigning batch, []) actions = some history
  within : Along (recorded step)
    (fun history action => action = .dispatch → history.1.dispatcher.Distributing)
    (state.assigning batch, []) actions
  ended : history.1.dispatcher = .after .high

/-- The batch is distributed as if its packets came one at a time. -/
structure OneAtATime (state : State) (batch : List Batched) : Prop where
  ends : ∃ actions history, state.Distribution batch actions history
  agrees : ∀ {actions history}, state.Distribution batch actions history →
    (observed sending history.2, history.1.distributionStats) =
      state.distributionStats.oneAtATime batch

end State

namespace HighDistributionStats

/-! ## Scores -/

theorem findBestChannel_leads (stats : HighDistributionStats) :
    stats.Leads stats.findBestChannel (stats.score stats.findBestChannel) := by
  simp only [findBestChannel, EdfChannel.all, List.foldl_cons, List.foldl_nil]
  split_ifs
  all_goals
    intro other different
    cases other
    all_goals
      first
      | exact absurd rfl different
      | simp only [cap, EdfChannel.index]
        omega

/-- At most one channel leads with its own score. -/
theorem Leads.unique {stats : HighDistributionStats} {channel other : EdfChannel}
    (leads : stats.Leads channel (stats.score channel))
    (leads' : stats.Leads other (stats.score other)) : channel = other := by
  by_contra different
  have first := leads other (Ne.symm different)
  have second := leads' channel different
  omega

theorem findBestChannel_eq_iff (stats : HighDistributionStats) (channel : EdfChannel) :
    stats.findBestChannel = channel ↔ stats.Leads channel (stats.score channel) := by
  constructor
  · rintro rfl
    exact stats.findBestChannel_leads
  · intro leads
    exact stats.findBestChannel_leads.unique leads

theorem Leads.of_le {stats : HighDistributionStats} {channel : EdfChannel} {more less : Nat}
    (leads : stats.Leads channel more) (le : less ≤ more) : stats.Leads channel less := by
  intro other different
  have capped : cap less ≤ cap more := min_le_min_right _ le
  rcases leads other different with below | ⟨level, earlier⟩
  · exact .inl (lt_of_le_of_lt capped below)
  · rcases lt_or_eq_of_le capped with lower | same
    · exact .inl (level ▸ lower)
    · exact .inr ⟨same.trans level, earlier⟩

theorem scoreWith_nil (stats : HighDistributionStats) (channel : EdfChannel) :
    stats.scoreWith channel [] = stats.score channel := rfl

theorem scoreWith_mono (stats : HighDistributionStats) (channel : EdfChannel)
    {fewer batch : List Batched} (isPrefix : fewer <+: batch) :
    stats.scoreWith channel fewer ≤ stats.scoreWith channel batch := by
  obtain ⟨rest, rfl⟩ := isPrefix
  simp only [scoreWith, List.length_append, List.map_append, List.sum_append]
  refine Nat.add_le_add ?_ (Nat.div_le_div_right ?_)
  · omega
  · exact Nat.add_le_add_left (Nat.le_add_right _ _) _

section Record

variable (stats : HighDistributionStats) (channel : EdfChannel) (batched : Batched)

theorem scoreWith_record (batch : List Batched) :
    (stats.recordDistributionWithSlack channel batched.deadlineSlack).scoreWith channel batch =
      stats.scoreWith channel (batched :: batch) := by
  simp only [scoreWith, recordDistributionWithSlack, Function.update_self, List.length_cons,
    List.map_cons, List.sum_cons, Nat.add_assoc, Nat.add_comm 1]

theorem score_record_of_ne {other : EdfChannel} (different : other ≠ channel) :
    (stats.recordDistributionWithSlack channel batched.deadlineSlack).score other =
      stats.score other := by
  simp only [score, recordDistributionWithSlack, Function.update_of_ne different]

theorem leads_record_iff (score : Nat) :
    (stats.recordDistributionWithSlack channel batched.deadlineSlack).Leads channel score ↔
      stats.Leads channel score := by
  refine forall_congr' fun other => forall_congr' fun different => ?_
  rw [score_record_of_ne stats channel batched different]

end Record

/-- A whole batch goes to one channel exactly if that channel leads with all
packets but the last. -/
theorem oneAtATime_eq_iff (stats : HighDistributionStats) (channel : EdfChannel) (batched : Batched)
    (rest : List Batched) :
    (stats.oneAtATime (batched :: rest)).1 = (batched :: rest).map (Prod.mk channel) ↔
      stats.Leads channel (stats.scoreWith channel (batched :: rest).dropLast) := by
  induction rest generalizing stats batched with
  | nil =>
      rw [List.dropLast_singleton, scoreWith_nil, ← findBestChannel_eq_iff]
      simp [oneAtATime]
  | cons next rest ih =>
      have first (leads : stats.Leads channel
          (stats.scoreWith channel (batched :: (next :: rest).dropLast))) :
          stats.findBestChannel = channel := by
        rw [findBestChannel_eq_iff, ← scoreWith_nil]
        exact leads.of_le (stats.scoreWith_mono channel List.nil_prefix)
      have later := ih (stats.recordDistributionWithSlack channel batched.deadlineSlack) next
      rw [leads_record_iff, scoreWith_record] at later
      rw [oneAtATime, List.map_cons, List.dropLast_cons_cons, List.cons.injEq, Prod.mk.injEq]
      constructor
      · rintro ⟨⟨best, _⟩, same⟩
        rw [best] at same
        exact later.mp same
      · intro leads
        have best := first leads
        refine ⟨⟨best, rfl⟩, ?_⟩
        rw [best]
        exact later.mpr leads

theorem oneAtATime_stats (stats : HighDistributionStats) (batch : List Batched) :
    (stats.oneAtATime batch).2 = stats.recordAll (stats.oneAtATime batch).1 := by
  induction batch generalizing stats with
  | nil => rfl
  | cons batched rest ih => exact ih _

/-- The batch and its statistics come out as from the choices before it exactly if
the channel chosen still leads for the last packet. -/
theorem stillLeads_iff (stats : HighDistributionStats) (batch : List Batched) :
    (batch.map (Prod.mk stats.findBestChannel),
        stats.recordAll (batch.map (Prod.mk stats.findBestChannel))) = stats.oneAtATime batch ↔
      stats.StillLeads batch := by
  have channels : (batch.map (Prod.mk stats.findBestChannel),
        stats.recordAll (batch.map (Prod.mk stats.findBestChannel))) = stats.oneAtATime batch ↔
      (stats.oneAtATime batch).1 = batch.map (Prod.mk stats.findBestChannel) := by
    rw [Prod.ext_iff, oneAtATime_stats]
    constructor
    · intro same
      exact same.1.symm
    · intro same
      exact ⟨same.symm, congrArg stats.recordAll same.symm⟩
  rw [channels]
  cases batch with
  | nil => exact iff_of_true rfl stats.findBestChannel_leads
  | cons batched rest => exact stats.oneAtATime_eq_iff _ batched rest

end HighDistributionStats

namespace State

/-! ## The dispatcher -/

/-- Only the dispatcher moves the dispatcher and changes the statistics. -/
theorem step_dispatcher {state next : State} {action : Action} (other : action ≠ .dispatch)
    (stepped : state.step action = some next) :
    next.dispatcher = state.dispatcher ∧ next.distributionStats = state.distributionStats := by
  cases action with
  | dispatch => exact absurd rfl other
  | arrive packet =>
      simp only [step] at stepped
      split at stepped <;> cases stepped
      exact ⟨rfl, rfl⟩
  | disconnect priority | tick elapsed | stop =>
      cases stepped
      exact ⟨rfl, rfl⟩
  | run channel => exact (runWorker_move stepped).frame.2
  | pop channel task => exact (popWorker_move stepped).frame.2
  | await channel timeout => exact (awaitWorker_move stepped).frame.2
  | reorder =>
      obtain ⟨_, _, _, rfl⟩ := (runReorder_moves stepped).frame
      exact ⟨rfl, rfl⟩
  | forward room =>
      obtain ⟨_, _, _, rfl⟩ := (forwardReorder_moves stepped).frame
      exact ⟨rfl, rfl⟩

/-- What was sent and what is still to be sent of the batch go to the channel best
at its beginning, and the statistics have what was recorded. -/
def Batching (stats : HighDistributionStats) (batch : List Batched)
    (history : State × Past State Action) : Prop :=
  let channels := batch.map (Prod.mk stats.findBestChannel)
  let sent := observed sending history.2
  match history.1.dispatcher with
  | .assign highBatch => highBatch = batch ∧ sent = [] ∧ history.1.distributionStats = stats
  | .send rest => sent ++ rest = channels ∧ history.1.distributionStats = stats.recordAll sent
  | .recordDistribution channel deadlineSlack rest => ∃ earlier batched,
      sent = earlier ++ [(channel, batched)] ∧ batched.deadlineSlack = deadlineSlack ∧
        sent ++ rest = channels ∧ history.1.distributionStats = stats.recordAll earlier
  | _ => sent = channels ∧ history.1.distributionStats = stats.recordAll channels

theorem recordAll_record (stats : HighDistributionStats) (earlier : List (EdfChannel × Batched))
    (channel : EdfChannel) (batched : Batched) :
    (stats.recordAll earlier).recordDistributionWithSlack channel batched.deadlineSlack =
      stats.recordAll (earlier ++ [(channel, batched)]) := by
  rw [HighDistributionStats.recordAll, HighDistributionStats.recordAll, List.foldl_append]
  rfl

theorem dispatch_batching {stats : HighDistributionStats} {batch : List Batched}
    {state next : State} {past : Past State Action} (batching : Batching stats batch (state, past))
    (within : state.dispatcher.Distributing) (move : DispatchMove state next) :
    Batching stats batch (next, past ++ [(state, .dispatch)]) := by
  cases move with
  | assign place =>
      simp only [Batching, place] at batching
      obtain ⟨rfl, nothing, same⟩ := batching
      have quiet : state.sending .dispatch = none := by simp only [sending, place]
      rw [Batching, observed_none quiet, nothing, same]
      exact ⟨rfl, rfl⟩
  | sent place =>
      simp only [Batching, place] at batching
      obtain ⟨whole, same⟩ := batching
      have quiet : state.sending .dispatch = none := by simp only [sending, place]
      rw [List.append_nil] at whole
      rw [Batching, observed_none quiet, same, whole]
      exact ⟨rfl, rfl⟩
  | send place =>
      rename_i channel batched rest
      simp only [Batching, place] at batching
      obtain ⟨whole, same⟩ := batching
      have sends : state.sending .dispatch = some (channel, batched) := by
        simp only [sending, place]
      rw [Batching, observed_some sends]
      refine ⟨observed sending past, batched, rfl, rfl, ?_, same⟩
      rw [List.append_assoc]
      exact whole
  | record place =>
      simp only [Batching, place] at batching
      obtain ⟨earlier, batched, sent, rfl, whole, same⟩ := batching
      have quiet : state.sending .dispatch = none := by simp only [sending, place]
      rw [Batching, observed_none quiet]
      refine ⟨whole, ?_⟩
      rw [sent, ← recordAll_record, ← same]
  | top place | collect place | collected place | receive place | skip place | deliver place =>
      rw [place] at within
      exact within.elim

theorem step_batching {stats : HighDistributionStats} {batch : List Batched}
    {history next : State × Past State Action} {action : Action}
    (batching : Batching stats batch history)
    (within : action = .dispatch → history.1.dispatcher.Distributing)
    (stepped : recorded step history action = some next) : Batching stats batch next := by
  obtain ⟨state, past⟩ := history
  obtain ⟨after, later⟩ := next
  obtain ⟨moved, rfl⟩ := recorded_eq_some.mp stepped
  by_cases own : action = .dispatch
  · subst own
    exact dispatch_batching batching (within rfl) (dispatch_moves moved)
  · obtain ⟨same, unchanged⟩ := step_dispatcher own moved
    have quiet : state.sending action = none := by
      cases action with
      | dispatch => exact absurd rfl own
      | _ => rfl
    simp only [Batching] at batching ⊢
    rw [observed_none quiet, same, unchanged]
    exact batching

/-- Whatever the other threads do, the batch goes to one channel. -/
theorem Distribution.outcome {state : State} {batch : List Batched} {actions : List Action}
    {history : State × Past State Action} (distribution : state.Distribution batch actions history) :
    let channels := batch.map (Prod.mk state.distributionStats.findBestChannel)
    (observed sending history.2, history.1.distributionStats) =
      (channels, state.distributionStats.recordAll channels) := by
  obtain ⟨ran, within, ended⟩ := distribution
  have start : Batching state.distributionStats batch (state.assigning batch, []) := ⟨rfl, rfl, rfl⟩
  have reached := TransitionSystem.run_guarded step_batching start within ran
  simp only [Batching, ended, DispatcherPc.after] at reached
  exact Prod.ext reached.1 reached.2

/-- A step of the dispatcher within its batch. -/
abbrev Dispatches (state next : State) : Prop :=
  state.dispatcher.Distributing ∧ state.step .dispatch = some next

theorem send_ends (state : State) (channels : List (EdfChannel × Batched))
    (sending : state.dispatcher = .send channels) :
    ∃ final, Relation.ReflTransGen Dispatches state final ∧ final.dispatcher = .after .high := by
  induction channels generalizing state with
  | nil =>
      refine ⟨{ state with dispatcher := .after .high }, .single ⟨?_, ?_⟩, rfl⟩
      · rw [sending]
        trivial
      · simp only [step, dispatch, sending]
  | cons entry rest ih =>
      obtain ⟨channel, batched⟩ := entry
      let sent : State := { state.sendTask channel .high batched.task with
        dispatcher := .recordDistribution channel batched.deadlineSlack rest }
      let recording : State := { sent with
        distributionStats :=
          sent.distributionStats.recordDistributionWithSlack channel batched.deadlineSlack
        dispatcher := .send rest }
      have sends : Dispatches state sent := by
        refine ⟨?_, ?_⟩
        · rw [sending]
          trivial
        · simp only [step, dispatch, sending, sent]
      have records : Dispatches sent recording := ⟨trivial, rfl⟩
      obtain ⟨final, ends, after⟩ := ih recording rfl
      exact ⟨final, .head sends (.head records ends), after⟩

theorem distribution_exists (state : State) (batch : List Batched) :
    ∃ actions history, state.Distribution batch actions history := by
  let channels := batch.map (Prod.mk state.distributionStats.findBestChannel)
  let chosen : State := { state with dispatcher := .send channels }
  have chooses : Dispatches (state.assigning batch) chosen := ⟨trivial, rfl⟩
  obtain ⟨final, ends, after⟩ := send_ends chosen channels rfl
  have steps : Relation.ReflTransGen
      (fun before next => ∃ action : Action,
        (action = .dispatch → before.dispatcher.Distributing) ∧ before.step action = some next)
      (state.assigning batch) final :=
    Relation.ReflTransGen.mono
      (fun _ _ dispatches => ⟨.dispatch, fun _ => dispatches.1, dispatches.2⟩) _ _
      (.head chooses ends)
  obtain ⟨actions, within, ran⟩ := TransitionSystem.exists_guarded_run steps
  obtain ⟨past, recording⟩ := exists_recorded ran []
  exact ⟨actions, (final, past), recording, along_recorded.mpr within, after⟩

def burst : List Action :=
  [.arrive (Packet.fromBuffer 0 0 .high [0] (Duration.fromMillis 1)),
    .arrive (Packet.fromBuffer 1 0 .high [0] (Duration.fromMillis 1))] ++ List.replicate 4 .dispatch

def collected : State := (run .initial burst).getD .initial

def burstBatch : List Batched :=
  [{ task := .of .high (Packet.fromBuffer 0 0 .high [0] (Duration.fromMillis 1))
     deadlineSlack := Duration.fromMillis 1 },
    { task := .of .high (Packet.fromBuffer 1 0 .high [0] (Duration.fromMillis 1))
      deadlineSlack := Duration.fromMillis 1 }]

end State

end EdfPipeline.McEdf
