import EdfPipeline.Gui.Documents

/-!
# From the sockets to the GUI

The pipeline with its statistics thread, the metrics server and a GUI that
connects to it again and again. `main` starts the server and the pipeline from
two threads, so the server may be there first.
-/

set_option autoImplicit false

namespace EdfPipeline

open TransitionSystem MetricsServer StatisticsThread

namespace Feed

/-- `started`: `run` has set `running`. -/
structure World (stage : Stage) where
  started : Bool
  watched : Watched stage
  server : MetricsServer.State Report
  gui : Gui.State

/-- `connect` is a connection of the GUI, other clients are accepted by the server alone. -/
inductive Action (stage : Stage) where
  | start
  | pipeline (action : StatisticsThread.Action stage)
  | server (action : MetricsServer.Action)
  | connect
  | gui (action : Gui.Action)

variable {stage : Stage}

def World.running (world : World stage) : Bool := world.started && world.watched.1.1.egress.running

def World.before (watched : Watched stage) : World stage where
  started := false
  watched
  server := .initial
  gui := .initial

/-- The connection of a client that was just accepted. -/
def World.connection (world : World stage) : Gui.Connection where
  id := world.server.clients.length
  arrived := 0
  buffer := []

def step (platform : Platform Report) (world : World stage) : Action stage → Option (World stage)
  | .start => if world.started then none else some { world with started := true }
  | .pipeline action =>
      if world.started then
        (StatisticsThread.step world.watched action).map fun watched => { world with watched }
      else none
  | .server action =>
      (world.server.step platform world.watched.2.sent world.running action).map fun server =>
        { world with server }
  | .connect =>
      match world.gui.connection with
      | some _ => none
      | none =>
          (world.server.step platform world.watched.2.sent world.running .accept).map fun server =>
            { world with server, gui := { world.gui with connection := some world.connection } }
  | .gui action =>
      (world.gui.step platform world.server.clients action).map fun gui => { world with gui }

inductive Moves (platform : Platform Report) (world : World stage) : Action stage → World stage → Prop where
  | start (unstarted : world.started = false) : Moves platform world .start { world with started := true }
  | pipeline {action : StatisticsThread.Action stage} {watched : Watched stage}
      (started : world.started = true) (moved : StatisticsThread.step world.watched action = some watched) :
      Moves platform world (.pipeline action) { world with watched }
  | server {action : MetricsServer.Action} {server : MetricsServer.State Report}
      (moved : world.server.step platform world.watched.2.sent world.running action = some server) :
      Moves platform world (.server action) { world with server }
  | connect {server : MetricsServer.State Report} (apart : world.gui.connection = none)
      (accepted : world.server.step platform world.watched.2.sent world.running .accept = some server) :
      Moves platform world .connect
        { world with server, gui := { world.gui with connection := some world.connection } }
  | gui {action : Gui.Action} {gui : Gui.State}
      (moved : world.gui.step platform world.server.clients action = some gui) :
      Moves platform world (.gui action) { world with gui }

theorem step_moves {platform : Platform Report} {world next : World stage} {action : Action stage}
    (stepped : step platform world action = some next) : Moves platform world action next := by
  cases action with
  | start =>
      simp only [step] at stepped
      split at stepped
      · cases stepped
      · rename_i unstarted
        cases stepped
        exact .start (Bool.eq_false_iff.mpr unstarted)
  | pipeline action =>
      simp only [step] at stepped
      split at stepped
      · rename_i started
        obtain ⟨watched, moved, rfl⟩ := Option.map_eq_some_iff.mp stepped
        exact .pipeline started moved
      · cases stepped
  | server action =>
      obtain ⟨server, moved, rfl⟩ := Option.map_eq_some_iff.mp stepped
      exact .server moved
  | connect =>
      simp only [step] at stepped
      split at stepped
      · cases stepped
      · rename_i apart
        obtain ⟨server, accepted, rfl⟩ := Option.map_eq_some_iff.mp stepped
        exact .connect apart accepted
  | gui action =>
      obtain ⟨gui, moved, rfl⟩ := Option.map_eq_some_iff.mp stepped
      exact .gui moved

/-! ## What is shown was sent -/

/-- The statistics thread only adds to what it sent. -/
theorem sent_grown {watched next : Watched stage} {action : StatisticsThread.Action stage}
    (stepped : StatisticsThread.step watched action = some next) :
    watched.2.sent <+: next.2.sent := by
  unfold StatisticsThread.step at stepped
  split at stepped
  · cases stepped
  · obtain ⟨after, _, rfl⟩ := Option.map_eq_some_iff.mp stepped
    exact List.prefix_rfl
  · unfold threadStep at stepped
    simp only at stepped
    split at stepped
    · cases stepped
      exact List.prefix_rfl
    · split at stepped
      · cases stepped
        exact List.prefix_rfl
      · cases stepped
        exact List.prefix_rfl
    · cases stepped
      exact List.prefix_rfl
    · cases stepped
      exact List.prefix_rfl
    · cases stepped
      exact List.prefix_rfl
    · cases stepped
      exact List.prefix_rfl
    · obtain ⟨after, _, rfl⟩ := Option.map_eq_some_iff.mp stepped
      exact List.prefix_append _ _
    · cases stepped
      exact List.prefix_rfl
    · cases stepped

variable {platform : Platform Report} {readBack : Report → Report}

structure Following (platform : Platform Report) (readBack : Report → Report) (world : World stage) :
    Prop where
  serves : world.server.Serves platform world.watched.2.sent
  shows : world.gui.Shows readBack world.server

/-- A new connection begins with the next report that is broadcast. -/
theorem Following.connect {world : World stage} (following : Following platform readBack world)
    {server : MetricsServer.State Report} (apart : world.gui.connection = none)
    (accepted : world.server.step platform world.watched.2.sent world.running .accept = some server) :
    ({ world.gui with connection := some world.connection } : Gui.State).Shows readBack server := by
  have shown := following.shows.disconnected apart
  have drawn := following.shows.drawn
  simp only [MetricsServer.State.step] at accepted
  split at accepted
  · cases accepted
    refine ⟨?_, ?_, ⟨drawn.past, drawn.plotted, drawn.latest⟩⟩
    · intro gone
      cases gone
    · intro connection same
      cases same
      refine ⟨_, world.gui.reports, [], List.getElem?_concat_length, ?_⟩
      refine ⟨List.nil_prefix, Nat.zero_le _, rfl, (List.append_nil _).symm, ?_⟩
      rw [List.take_length]
      exact shown
  · cases accepted

theorem step_following (lawful : platform.Lawful readBack) {world next : World stage}
    {action : Action stage} (following : Following platform readBack world)
    (stepped : step platform world action = some next) : Following platform readBack next := by
  cases step_moves stepped with
  | start unstarted => exact ⟨following.serves, following.shows⟩
  | pipeline started moved => exact ⟨following.serves.more (sent_grown moved), following.shows⟩
  | server moved =>
      obtain ⟨serves, grows⟩ := State.step_serves following.serves moved
      exact ⟨serves, following.shows.grow following.serves grows⟩
  | connect apart accepted =>
      obtain ⟨serves, _⟩ := State.step_serves following.serves accepted
      exact ⟨serves, following.connect apart accepted⟩
  | gui moved => exact ⟨following.serves, Gui.State.step_shows lawful following.serves following.shows moved⟩

theorem before_following (platform : Platform Report) (readBack : Report → Report)
    (watched : Watched stage) : Following platform readBack (World.before watched) := by
  refine ⟨State.initial_serves platform _, ?_, ?_, Gui.State.initial_drawn⟩
  · intro _
    exact List.nil_sublist _
  · intro connection same
    cases same

/-- The server and the GUI leave the pipeline alone. -/
theorem step_watched {registrations : List Registration} {stage : ClassStage registrations}
    {world next : World stage.toStage} {action : Action stage.toStage} (watching : Watching world.watched)
    (stepped : step platform world action = some next) : Watching next.watched := by
  cases step_moves stepped with
  | pipeline started moved => exact step_watching watching moved
  | start | server | connect | gui => exact watching

/-- What the GUI shows was sent by the statistics thread, in order and none twice; while a
connection lasts nothing that is broadcast is left out; and the curves are those of what
is shown. -/
structure Displayed (readBack : Report → Report) (world : World stage) : Prop where
  inOrder : world.gui.reports.Sublist (world.watched.2.sent.map readBack)
  gapless : ∀ connection, world.gui.connection = some connection → ∃ client earlier lines,
    world.server.clients[connection.id]? = some client ∧
      lines <+: world.server.log.drop client.subscribed ∧
      world.gui.reports = earlier ++ Gui.displayed readBack lines
  drawn : world.gui.Drawn

theorem Following.displayed {world : World stage} (following : Following platform readBack world) :
    Displayed readBack world where
  inOrder := by
    have broadcast := following.serves.reports.trans (List.take_sublist _ _)
    have shown : world.gui.reports.Sublist ((world.server.log.map Message.report).map readBack) := by
      rw [List.map_map]
      exact following.shows.sublist
    exact shown.trans (broadcast.map readBack)
  gapless := by
    intro connection here
    obtain ⟨client, earlier, lines, found, reads⟩ := following.shows.connected connection here
    exact ⟨client, earlier, lines, found, reads.broadcast, reads.shown⟩
  drawn := following.shows.drawn

/-! ## Figures -/

/-- The numbers of a snapshot that are no durations. -/
structure Counts where
  packetCount : Nat
  deadlineMisses : Nat
  ingressDrops : Nat
  edfHeapDrops : Nat
  edfOutputDrops : Nat
  totalDrops : Nat
  deriving DecidableEq

def counts (snapshot : FlowSnapshot) : Counts where
  packetCount := snapshot.statistics.packetCount
  deadlineMisses := snapshot.statistics.deadlineMisses
  ingressDrops := snapshot.ingressDrops
  edfHeapDrops := snapshot.edfHeapDrops
  edfOutputDrops := snapshot.edfOutputDrops
  totalDrops := snapshot.totalDrops

/-- Integers are read back as they were written. -/
def KeepsCounts (readBack : Report → Report) : Prop :=
  ∀ report priority, (readBack report priority).map counts = (report priority).map counts

theorem precedes_of_counts {earlier later earlier' later' : FlowSnapshot}
    (precedes : Precedes earlier later) (first : counts earlier' = counts earlier)
    (second : counts later' = counts later) : Precedes earlier' later' := by
  obtain ⟨packets, misses, ingress, _, output, total⟩ := Counts.mk.inj first
  obtain ⟨packets', misses', ingress', _, output', total'⟩ := Counts.mk.inj second
  obtain ⟨⟨received, missed⟩, ingressDrops, edfOutputDrops, totalDrops⟩ := precedes
  refine ⟨⟨?_, ?_⟩, ?_, ?_, ?_⟩
  · change earlier'.statistics.packetCount ≤ later'.statistics.packetCount
    rw [packets, packets']
    exact received
  · change earlier'.statistics.deadlineMisses ≤ later'.statistics.deadlineMisses
    rw [misses, misses']
    exact missed
  · rw [ingress, ingress']
    exact ingressDrops
  · rw [output, output']
    exact edfOutputDrops
  · rw [total, total']
    exact totalDrops

section Figures

variable (keeps : KeepsCounts readBack)

include keeps

/-- A snapshot that is shown was made of one with the same counts. -/
theorem read_counts {report : Report} {priority : Priority} {snapshot : FlowSnapshot}
    (shown : snapshot ∈ readBack report priority) :
    ∃ original ∈ report priority, counts snapshot = counts original := by
  have same := keeps report priority
  rw [Option.mem_def.mp shown, Option.map_some] at same
  obtain ⟨original, here, equal⟩ := Option.map_eq_some_iff.mp same.symm
  exact ⟨original, here, equal.symm⟩

theorem shown_counts {report : Report} {priority : Priority} {original : FlowSnapshot}
    (sent : original ∈ report priority) :
    ∃ snapshot ∈ readBack report priority, counts snapshot = counts original := by
  have same := keeps report priority
  rw [Option.mem_def.mp sent, Option.map_some] at same
  exact Option.map_eq_some_iff.mp same

theorem ascends_readBack {earlier later : Report} (ascends : Ascends earlier later) :
    Ascends (readBack earlier) (readBack later) := by
  intro priority snapshot shown
  obtain ⟨original, here, same⟩ := read_counts keeps shown
  obtain ⟨next, there, precedes⟩ := ascends priority original here
  obtain ⟨shownNext, displayed, sameNext⟩ := shown_counts keeps there
  exact ⟨shownNext, displayed, precedes_of_counts precedes same sameNext⟩

end Figures

/-- Of reports that go up, the snapshots of a class go up. -/
theorem shownOf_ascending {shown : List (Instant × Report)}
    (ascending : (shown.map Prod.snd).Pairwise Ascends) (priority : Priority) :
    (Gui.shownOf priority shown).Pairwise fun earlier later => Precedes earlier.2 later.2 := by
  refine List.Pairwise.filterMap _ ?_ (List.pairwise_map.mp ascending)
  intro earlier later ascends first here second there
  obtain ⟨snapshot, shownFirst, rfl⟩ := Option.map_eq_some_iff.mp here
  obtain ⟨other, shownSecond, rfl⟩ := Option.map_eq_some_iff.mp there
  obtain ⟨next, found, precedes⟩ := ascends priority snapshot shownFirst
  rw [Option.mem_def.mp found] at shownSecond
  cases shownSecond
  exact precedes

/-- The figures and the curves the GUI shows: no packet is counted twice, nothing goes
back, and the curves of the drops do not either. -/
structure Figures (world : World stage) : Prop where
  read : ∀ report ∈ world.gui.reports, ∀ priority, ∀ snapshot ∈ report priority,
    snapshot.totalDrops + snapshot.statistics.packetCount ≤ Pipeline.readOf world.watched.1.2 priority
  misses : ∀ report ∈ world.gui.reports, ∀ priority, ∀ snapshot ∈ report priority,
    snapshot.statistics.deadlineMisses ≤ snapshot.statistics.packetCount
  ascending : world.gui.reports.Pairwise Ascends
  curves : ∀ priority flow, world.gui.history priority = some flow →
    flow.points.length ≤ Gui.maxPoints ∧
      flow.points.Pairwise (fun earlier later =>
        earlier.time + Gui.spacing < later.time ∧ earlier.totalDrops ≤ later.totalDrops) ∧
      ∀ point ∈ flow.points, point.totalDrops ≤ Pipeline.readOf world.watched.1.2 priority

theorem Displayed.figures {world : World stage} (displayed : Displayed readBack world)
    (keeps : KeepsCounts readBack) (reported : Reported world.watched) : Figures world := by
  have sent : ∀ report ∈ world.gui.reports, ∃ original ∈ world.watched.2.sent, report = readBack original := by
    intro report listed
    obtain ⟨original, here, same⟩ := List.mem_map.mp (displayed.inOrder.subset listed)
    exact ⟨original, here, same.symm⟩
  have read : ∀ report ∈ world.gui.reports, ∀ priority, ∀ snapshot ∈ report priority,
      snapshot.totalDrops + snapshot.statistics.packetCount ≤
        Pipeline.readOf world.watched.1.2 priority := by
    intro report listed priority snapshot shown
    obtain ⟨original, here, rfl⟩ := sent report listed
    obtain ⟨source, found, same⟩ := read_counts keeps shown
    obtain ⟨packets, _, _, _, _, total⟩ := Counts.mk.inj same
    rw [packets, total]
    exact reported.read original here priority source found
  have ascending : world.gui.reports.Pairwise Ascends := by
    refine List.Pairwise.sublist displayed.inOrder (List.pairwise_map.mpr ?_)
    exact reported.ascending.imp fun ascends => ascends_readBack keeps ascends
  refine ⟨read, ?_, ascending, ?_⟩
  · intro report listed priority snapshot shown
    obtain ⟨original, here, rfl⟩ := sent report listed
    obtain ⟨source, found, same⟩ := read_counts keeps shown
    obtain ⟨packets, misses, _⟩ := Counts.mk.inj same
    rw [packets, misses]
    exact reported.misses original here priority source found
  · intro priority flow here
    obtain ⟨plots, size⟩ := displayed.drawn.plotted.plots here
    obtain ⟨picks, part, points⟩ := plots.picked
    refine ⟨size ▸ plots.bounded, plots.spaced.and ?_, ?_⟩
    · rw [points, List.pairwise_map]
      refine ((shownOf_ascending ascending priority).sublist part).imp ?_
      intro earlier later precedes
      exact precedes.totalDrops
    · intro point listed
      rw [points] at listed
      obtain ⟨⟨shownAt, snapshot⟩, picked, rfl⟩ := List.mem_map.mp listed
      obtain ⟨⟨time, report⟩, shown, found⟩ := List.mem_filterMap.mp (part.subset picked)
      obtain ⟨_, within, same⟩ := Option.map_eq_some_iff.mp found
      cases same
      have whole := read report (List.mem_map_of_mem shown) priority _ within
      exact (Nat.le_add_right _ _).trans whole

/-! ## A server that is there too early -/

/-- Nothing was broadcast, so nothing is on the way. -/
structure Silent (platform : Platform Report) (world : World stage) : Prop where
  serves : world.server.Serves platform world.watched.2.sent
  log : world.server.log = []
  shown : world.gui.shown = []
  buffer : ∀ connection, world.gui.connection = some connection → connection.buffer = []

theorem Silent.written {world : World stage} (silent : Silent platform world) :
    ∀ client ∈ world.server.clients, client.written = [] := by
  intro client listed
  have within := (silent.serves.follows client listed).within
  rw [silent.log, Client.messages, List.drop_nil, List.take_nil] at within
  exact List.prefix_nil.mp within

/-- The forwarder does nothing while nothing was sent, or after it has returned. -/
theorem server_silent {world : World stage} (silent : Silent platform world)
    (idle : world.watched.2.sent = [] ∨ world.server.forwarder = .returned)
    {action : MetricsServer.Action} {server : MetricsServer.State Report}
    (moved : world.server.step platform world.watched.2.sent world.running action = some server) :
    server.Serves platform world.watched.2.sent ∧ server.log = [] ∧
      (world.server.forwarder = .returned → server.forwarder = .returned) := by
  refine ⟨(State.step_serves silent.serves moved).1, ?_⟩
  have log := silent.log
  cases action with
  | forward order =>
      simp only [MetricsServer.State.step, MetricsServer.State.forward] at moved
      split at moved
      · rename_i place
        have nothing : world.watched.2.sent = [] := idle.resolve_right (by rw [place]; decide)
        rw [nothing, List.getElem?_nil] at moved
        cases moved
        exact ⟨log, by rw [place]; intro done; cases done⟩
      · rename_i place
        cases moved
        exact ⟨log, by rw [place]; intro done; cases done⟩
      · cases moved
  | accept =>
      simp only [MetricsServer.State.step] at moved
      split at moved
      · cases moved
        exact ⟨log, id⟩
      · cases moved
  | checkRunning =>
      simp only [MetricsServer.State.step] at moved
      split at moved
      · cases moved
        exact ⟨log, id⟩
      · cases moved
  | client id action =>
      obtain ⟨client, _, acted⟩ := Option.bind_eq_some_iff.mp moved
      obtain ⟨_, _, rfl⟩ := Option.map_eq_some_iff.mp acted
      exact ⟨log, fun done => done⟩

theorem gui_silent {world : World stage} (silent : Silent platform world) {action : Gui.Action}
    {gui : Gui.State} (moved : world.gui.step platform world.server.clients action = some gui) :
    Silent platform { world with gui } := by
  obtain ⟨serves, log, shown, buffer⟩ := silent
  cases action with
  | tick elapsed =>
      cases moved
      exact ⟨serves, log, shown, buffer⟩
  | receive count =>
      obtain ⟨connection, here, found⟩ := Option.bind_eq_some_iff.mp moved
      obtain ⟨client, listed, received⟩ := Option.bind_eq_some_iff.mp found
      split at received
      · cases received
        refine ⟨serves, log, shown, ?_⟩
        intro reached same
        cases same
        have written := Silent.written ⟨serves, log, shown, buffer⟩ client (List.mem_of_getElem? listed)
        simp [written, buffer connection here]
      · cases received
  | readLine =>
      obtain ⟨connection, here, found⟩ := Option.bind_eq_some_iff.mp moved
      obtain ⟨_, read, _⟩ := Option.map_eq_some_iff.mp found
      rw [buffer connection here] at read
      cases read
  | readEnd =>
      obtain ⟨connection, here, found⟩ := Option.bind_eq_some_iff.mp moved
      obtain ⟨client, listed, ended⟩ := Option.bind_eq_some_iff.mp found
      split at ended
      · rw [if_pos (buffer connection here)] at ended
        cases ended
        refine ⟨serves, log, shown, ?_⟩
        intro reached same
        cases same
      · cases ended
  | fail =>
      cases moved
      refine ⟨serves, log, shown, ?_⟩
      intro reached same
      cases same

theorem step_silent {world next : World stage} {action : Action stage} (silent : Silent platform world)
    (idle : world.started = false ∧ world.watched.2.sent = [] ∨ world.server.forwarder = .returned)
    (stepped : step platform world action = some next) :
    Silent platform next ∧
      (world.server.forwarder = .returned → next.server.forwarder = .returned) ∧
      (next.started = false → world.started = false ∧ next.watched = world.watched) := by
  have apart := idle.imp And.right id
  cases step_moves stepped with
  | start unstarted =>
      refine ⟨⟨silent.serves, silent.log, silent.shown, silent.buffer⟩, id, ?_⟩
      intro later
      cases later
  | pipeline started moved =>
      have serves := silent.serves.more (sent_grown moved)
      refine ⟨⟨serves, silent.log, silent.shown, silent.buffer⟩, id, ?_⟩
      intro later
      rw [started] at later
      cases later
  | server moved =>
      obtain ⟨serves, log, stays⟩ := server_silent silent apart moved
      exact ⟨⟨serves, log, silent.shown, silent.buffer⟩, stays, fun unstarted => ⟨unstarted, rfl⟩⟩
  | connect alone accepted =>
      obtain ⟨serves, log, stays⟩ := server_silent silent apart accepted
      refine ⟨⟨serves, log, silent.shown, ?_⟩, stays, fun unstarted => ⟨unstarted, rfl⟩⟩
      intro connection same
      cases same
      rfl
  | gui moved => exact ⟨gui_silent silent moved, id, fun unstarted => ⟨unstarted, rfl⟩⟩

/-- `run` is called once. -/
theorem step_started {world next : World stage} {action : Action stage}
    (stepped : step platform world action = some next) (started : world.started = true) :
    next.started = true := by
  cases step_moves stepped with
  | start => rfl
  | pipeline | server | connect | gui => exact started

theorem unstarted_silent {watched : Watched stage} (nothing : watched.2.sent = [])
    {actions : List (Action stage)} {world : World stage}
    (ran : run (step platform) (World.before watched) actions = some world)
    (unstarted : world.started = false) : Silent platform world := by
  have early : world.started = false → Silent platform world ∧ world.watched.2.sent = [] := by
    let quiet (world : World stage) : Prop :=
      world.started = false → Silent platform world ∧ world.watched.2.sent = []
    refine @run_invariant _ _ _ quiet ?_ _ _ _ ?_ ran
    · intro world action next before stepped later
      have earlier : world.started = false :=
        Bool.eq_false_iff.mpr fun started => by rw [step_started stepped started] at later; cases later
      obtain ⟨silent, sent⟩ := before earlier
      obtain ⟨after, _, same⟩ := step_silent silent (.inl ⟨earlier, sent⟩) stepped
      obtain ⟨_, watched⟩ := same later
      exact ⟨after, watched ▸ sent⟩
    · intro _
      refine ⟨⟨State.initial_serves platform _, rfl, rfl, ?_⟩, nothing⟩
      intro connection same
      cases same
  exact (early unstarted).1

/-- What reaches the clients of the server. -/
structure NothingHeard (world : World stage) : Prop where
  written : ∀ client ∈ world.server.clients, client.written = []
  shown : world.gui.shown = []

end Feed

namespace PipelineConfig

variable (config : PipelineConfig)

/-- The pipeline is put together, and the server is there. -/
def feed : Feed.World config.stage := .before ((config.start, []), .start)

open Feed in
/-- Whatever the scheduler, what the GUI shows are reports of the statistics thread, in
order and none twice, however the stream is cut and however often it connects; within a
connection none is left out; and its curves keep the newest points, more than 50 ms apart. -/
theorem gui_shows_reports {platform : Platform Report} {readBack : Report → Report}
    (lawful : platform.Lawful readBack) (actions : List (Feed.Action config.stage)) :
    Throughout (Feed.step platform) (Displayed readBack) config.feed actions :=
  throughout_invariant (step_following lawful) Following.displayed
    (before_following platform readBack _) actions

open Feed in
/-- With every scheduler but MC-EDF, of the packets the GUI shows as counted or dropped
each was read and is shown once, no figure goes back, and neither do its curves. -/
theorem gui_shows_only_read (keepsClasses : config.scheduler ≠ .mcEdfElastic)
    {platform : Platform Report} {readBack : Report → Report} (lawful : platform.Lawful readBack)
    (keeps : KeepsCounts readBack) (actions : List (Feed.Action config.stage)) :
    Throughout (Feed.step platform) Figures config.feed actions := by
  obtain ⟨stage, same⟩ := config.exists_classStage keepsClasses
  rw [feed, PipelineConfig.start]
  revert actions
  rw [← same]
  intro actions
  let holds (world : World stage.toStage) : Prop := Following platform readBack world ∧ Watching world.watched
  refine @throughout_invariant _ _ _ holds _ ?_ ?_ _ ?_ actions
  · intro world action next holds stepped
    exact ⟨step_following lawful holds.1 stepped, step_watched holds.2 stepped⟩
  · intro world holds
    exact holds.1.displayed.figures keeps holds.2.reported
  · exact ⟨before_following platform readBack _, start_watching config.registrations Pipeline.outputSocketMap⟩

open Feed in
/-- A server whose forwarder looks at `running` before the pipeline was started is never
heard of again: whatever happens later, no client is written anything. -/
theorem early_server_unheard (platform : Platform Report) {before after : List (Feed.Action config.stage)}
    {world : Feed.World config.stage} (ran : run (Feed.step platform) config.feed before = some world)
    (unstarted : world.started = false) (checked : world.server.forwarder = .returned) :
    Throughout (Feed.step platform) NothingHeard world after := by
  let dead (world : World config.stage) : Prop :=
    Silent platform world ∧ world.server.forwarder = .returned
  refine @throughout_invariant _ _ _ dead _ ?_ ?_ _ ?_ after
  · intro world action next holds stepped
    obtain ⟨silent, stays, _⟩ := step_silent holds.1 (.inr holds.2) stepped
    exact ⟨silent, stays holds.2⟩
  · intro world holds
    exact ⟨holds.1.written, holds.1.shown⟩
  · exact ⟨unstarted_silent rfl ran unstarted, checked⟩

end PipelineConfig

/-! ## Two reports -/

namespace Feed

/-- A report is broadcast, and the GUI reads its line in two pieces. -/
def delivered : List (Action Edf.stage) :=
  [.server (.forward 0), .server (.forward 0), .server (.client 0 .recv),
    .server (.client 0 (.write 40)), .gui (.receive 40), .server (.client 0 (.write 52)),
    .gui (.receive 52), .gui .readLine]

/-- The GUI is connected when the first report is sent, and shows the second one 100 ms
after the first. -/
def twoReports : List (Action Edf.stage) :=
  [.start, .connect] ++ firstReport.map .pipeline ++ delivered ++ .gui (.tick 100000000) ::
    nextReport.map .pipeline ++ delivered

/-- The forwarder of the server runs before the pipeline is started. -/
def forwarderFirst : List (Action Edf.stage) := List.replicate 2 (.server (.forward 0))

end Feed

open Feed Gui in
theorem two_reports_displayed :
    documents.Lawful id ∧
      Throughout (Feed.step documents) (Displayed id) PipelineConfig.default.feed twoReports ∧
      (run (Feed.step documents) PipelineConfig.default.feed twoReports).map (fun world =>
          (world.gui.reports.map fun report =>
            (report .high).map fun snapshot => snapshot.statistics.packetCount,
          (world.gui.history .high).map fun flow => flow.points.map StatisticsPoint.time)) =
        some ([some 1, some 2], some [0, 100000000]) :=
  ⟨documents_lawful, PipelineConfig.default.gui_shows_reports documents_lawful twoReports,
    by decide +kernel⟩

open Feed Gui in
theorem two_reports_figures :
    PipelineConfig.default.scheduler ≠ .mcEdfElastic ∧ documents.Lawful id ∧ KeepsCounts id ∧
      Throughout (Feed.step documents) Figures PipelineConfig.default.feed twoReports ∧
      (run (Feed.step documents) PipelineConfig.default.feed twoReports).map (fun world =>
          (world.gui.reports.map fun report => (report .high).map counts,
          (world.gui.history .high).map fun flow => flow.points.map StatisticsPoint.totalDrops)) =
        some ([some ⟨1, 0, 0, 0, 0, 0⟩, some ⟨2, 0, 1, 0, 0, 1⟩], some [0, 1]) :=
  have keeps : KeepsCounts id := fun _ _ => rfl
  ⟨by decide, documents_lawful, keeps,
    PipelineConfig.default.gui_shows_only_read (by decide) documents_lawful keeps twoReports,
    by decide +kernel⟩

open Feed Gui in
theorem forwarder_first_unheard :
    ∃ world, run (Feed.step documents) PipelineConfig.default.feed forwarderFirst = some world ∧
      world.started = false ∧ world.server.forwarder = .returned ∧
      Throughout (Feed.step documents) NothingHeard world twoReports := by
  refine ⟨_, rfl, rfl, rfl, ?_⟩
  have ran : run (Feed.step documents) PipelineConfig.default.feed forwarderFirst = some _ := rfl
  exact PipelineConfig.default.early_server_unheard documents ran rfl rfl

end EdfPipeline
