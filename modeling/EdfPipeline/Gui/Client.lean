import EdfPipeline.Gui.History
import EdfPipeline.Metrics.Server

/-!
# The client of the metrics server

The thread of `run_gui_client` reads the stream of the metrics server line by
line, in whatever pieces it comes, and connects again when it ends. What is
shown are the reports broadcast, in order and none twice, and while a connection
lasts none is left out.
-/

set_option autoImplicit false

namespace EdfPipeline.Gui

open Framing MetricsServer

/-- `id` is the client the server accepted, `arrived` the bytes of its stream that came
in, `buffer` those of them that were not read yet. -/
structure Connection where
  id : Nat
  arrived : Nat
  buffer : List UInt8

/-- `shown` are the reports that were read, with the times they were read at. -/
structure State where
  clock : Instant
  connection : Option Connection
  latest : Report
  history : PriorityTable (Option FlowStatistics)
  shown : List (Instant × Report)

inductive Action where
  | tick (elapsed : Duration)
  | receive (count : Nat)
  | readLine
  | readEnd
  | fail

def maxPoints : Nat := 1024

namespace State

def initial : State where
  clock := 0
  connection := none
  latest := fun _ => none
  history := fun _ => none
  shown := []

/-- A line that is not a report is only complained about. -/
def handle (platform : Platform Report) (state : State) (line : List UInt8) : State :=
  match platform.fromStr line with
  | some report =>
      { state with
        latest := report
        history := update maxPoints state.history state.clock report
        shown := state.shown ++ [(state.clock, report)] }
  | none => state

/-- A stream that ends within a line gives what there is of it, and then nothing. -/
def step (platform : Platform Report) (clients : List Client) (state : State) : Action → Option State
  | .tick elapsed => some { state with clock := state.clock + elapsed }
  | .receive count =>
      state.connection.bind fun connection =>
        (clients[connection.id]?).bind fun client =>
          if connection.arrived + count ≤ client.written.length then
            some { state with
              connection := some { connection with
                arrived := connection.arrived + count
                buffer := connection.buffer ++ (client.written.drop connection.arrived).take count } }
          else none
  | .readLine =>
      state.connection.bind fun connection =>
        (Framing.readLine newline connection.buffer).map fun (line, rest) =>
          { state.handle platform line with connection := some { connection with buffer := rest } }
  | .readEnd =>
      state.connection.bind fun connection =>
        (clients[connection.id]?).bind fun client =>
          if client.pc = .closed ∧ connection.arrived = client.written.length ∧
              Framing.readLine newline connection.buffer = none then
            let state := if connection.buffer = [] then state else state.handle platform connection.buffer
            some { state with connection := none }
          else none
  | .fail => some { state with connection := none }

def reports (state : State) : List Report := state.shown.map Prod.snd

end State

/-! ## What is read of a connection -/

variable {platform : Platform Report} {readBack : Report → Report} {sent : List Report}
  {server : MetricsServer.State Report}

def displayed (readBack : Report → Report) (messages : List (Message Report)) : List Report :=
  messages.map fun message => readBack message.report

/-- `lines` are the messages read on the connection, `earlier` was shown before it. -/
structure Connection.Reads (readBack : Report → Report) (log : List (Message Report)) (client : Client)
    (reports : List Report) (connection : Connection) (earlier : List Report)
    (lines : List (Message Report)) : Prop where
  broadcast : lines <+: log.drop client.subscribed
  inside : connection.arrived ≤ client.written.length
  buffer : stream lines ++ connection.buffer = client.written.take connection.arrived
  shown : reports = earlier ++ displayed readBack lines
  before : earlier.Sublist (displayed readBack (log.take client.subscribed))

theorem displayed_append (first second : List (Message Report)) :
    displayed readBack (first ++ second) = displayed readBack first ++ displayed readBack second :=
  List.map_append

variable {log : List (Message Report)} {client : Client} {connection : Connection}
  {reports earlier : List Report} {lines : List (Message Report)}

theorem Connection.Reads.sublist (reads : connection.Reads readBack log client reports earlier lines) :
    reports.Sublist (displayed readBack log) := by
  rw [reads.shown, ← List.take_append_drop client.subscribed log, displayed_append]
  exact reads.before.append (reads.broadcast.sublist.map _)

/-- The server only adds to what it broadcast and wrote. -/
theorem Connection.Reads.grow (reads : connection.Reads readBack log client reports earlier lines)
    (follows : client.Follows log) {later : List (Message Report)} (more : log <+: later)
    {next : Client} (grows : client.Grows next) :
    connection.Reads readBack later next reports earlier lines := by
  obtain ⟨new, rfl⟩ := more
  have started := Nat.le_trans follows.started follows.reached
  refine ⟨?_, reads.inside.trans grows.written.length_le, ?_, reads.shown, ?_⟩
  · rw [grows.subscribed, List.drop_append_of_le_length started]
    exact reads.broadcast.trans (List.prefix_append _ _)
  · obtain ⟨bytes, whole⟩ := grows.written
    rw [reads.buffer, ← whole, List.take_append_of_le_length reads.inside]
  · rw [grows.subscribed, List.take_append_of_le_length started]
    exact reads.before

/-- The bytes not read yet are the beginning of the messages to come. -/
theorem Connection.Reads.ahead (reads : connection.Reads readBack log client reports earlier lines)
    (follows : client.Follows log) :
    ∃ ahead, log.drop client.subscribed = lines ++ ahead ∧ connection.buffer <+: stream ahead := by
  obtain ⟨ahead, whole⟩ := reads.broadcast
  refine ⟨ahead, whole.symm, ?_⟩
  have within : stream lines ++ connection.buffer <+: stream (log.drop client.subscribed) := by
    rw [reads.buffer]
    exact (List.take_prefix _ _).trans (follows.within.trans (stream_mono (List.take_prefix _ _)))
  rw [← whole, stream_append] at within
  exact (List.prefix_append_right_inj _).mp within

theorem Connection.Reads.receive (reads : connection.Reads readBack log client reports earlier lines)
    {count : Nat} (inside : connection.arrived + count ≤ client.written.length) :
    ({ connection with
        arrived := connection.arrived + count
        buffer := connection.buffer ++ (client.written.drop connection.arrived).take count } :
      Connection).Reads readBack log client reports earlier lines := by
  refine { reads with inside, buffer := ?_ }
  rw [← List.append_assoc, reads.buffer, ← List.take_add]

theorem plain_of_encoded (lawful : platform.Lawful readBack)
    (encoded : ∀ message ∈ log, ∃ order, platform.toString order message.report = some message.json)
    {ahead : List (Message Report)} (part : ∀ message ∈ ahead, message ∈ log) :
    ∀ json ∈ ahead.map Message.json, newline ∉ json := by
  intro json listed
  obtain ⟨message, here, rfl⟩ := List.mem_map.mp listed
  obtain ⟨order, made⟩ := encoded message (part message here)
  exact lawful.oneLine made

/-- A line read is the next message. -/
theorem Connection.Reads.next (lawful : platform.Lawful readBack)
    (encoded : ∀ message ∈ log, ∃ order, platform.toString order message.report = some message.json)
    (reads : connection.Reads readBack log client reports earlier lines) (follows : client.Follows log)
    {line rest : List UInt8} (found : readLine newline connection.buffer = some (line, rest)) :
    ∃ message, platform.fromStr line = some (readBack message.report) ∧
      ({ connection with buffer := rest } : Connection).Reads readBack log client
        (reports ++ [readBack message.report]) earlier (lines ++ [message]) := by
  obtain ⟨ahead, whole, within⟩ := reads.ahead follows
  have part : ∀ message ∈ ahead, message ∈ log := by
    intro message listed
    refine List.mem_of_mem_drop (i := client.subscribed) ?_
    rw [whole]
    exact List.mem_append_right _ listed
  obtain ⟨json, later, split, rfl, _⟩ := readLine_next (plain_of_encoded lawful encoded part) within found
  obtain ⟨message, after, rfl, rfl, rfl⟩ := List.map_eq_cons_iff.mp split
  obtain ⟨order, made⟩ := encoded message (part message List.mem_cons_self)
  obtain ⟨_, _, same, cut⟩ := readLine_eq_some found
  refine ⟨message, lawful.line made, ⟨?_, reads.inside, ?_, ?_, reads.before⟩⟩
  · rw [whole]
    exact ⟨after, by rw [List.append_assoc]; rfl⟩
  · rw [← reads.buffer, cut, stream_append, List.append_assoc]
    simp [stream, frames]
  · rw [reads.shown, displayed_append, List.append_assoc]
    rfl

/-- A line that was cut off is not a report, unless only its end is missing. -/
theorem Connection.Reads.last (lawful : platform.Lawful readBack)
    (encoded : ∀ message ∈ log, ∃ order, platform.toString order message.report = some message.json)
    (reads : connection.Reads readBack log client reports earlier lines) (follows : client.Follows log)
    (nothing : readLine newline connection.buffer = none) (something : connection.buffer ≠ []) :
    ∀ report ∈ platform.fromStr connection.buffer,
      (reports ++ [report]).Sublist (displayed readBack log) := by
  intro report read
  obtain ⟨ahead, whole, within⟩ := reads.ahead follows
  rcases leftover within nothing with empty | ⟨json, later, split, part⟩
  · exact absurd empty something
  · obtain ⟨message, after, rfl, rfl, rfl⟩ := List.map_eq_cons_iff.mp split
    have listed : message ∈ log := by
      refine List.mem_of_mem_drop (i := client.subscribed) ?_
      rw [whole]
      exact List.mem_append_right _ List.mem_cons_self
    obtain ⟨order, made⟩ := encoded message listed
    by_cases same : connection.buffer = message.json
    · rw [same, lawful.unended made] at read
      obtain rfl := Option.some.inj read
      rw [reads.shown, ← List.take_append_drop client.subscribed log, whole, displayed_append,
        List.append_assoc]
      refine reads.before.append ?_
      rw [displayed_append]
      exact (List.Sublist.refl _).append (List.singleton_sublist.mpr List.mem_cons_self)
    · rw [lawful.cut made part same] at read
      cases read

/-! ## What is shown -/

namespace State

/-- The curves are those of what was shown, and the latest report is the last of it. -/
structure Drawn (state : State) : Prop where
  past : ∀ entry ∈ state.shown, entry.1 ≤ state.clock
  plotted : Plotted maxPoints state.shown state.history
  latest : state.latest = state.reports.getLast?.getD fun _ => none

theorem initial_drawn : initial.Drawn := by
  refine ⟨?_, plotted_nil maxPoints, rfl⟩
  intro entry listed
  cases listed

variable {state next : State}

theorem handle_some {line : List UInt8} {report : Report} (read : platform.fromStr line = some report) :
    state.handle platform line =
      { state with
        latest := report
        history := update maxPoints state.history state.clock report
        shown := state.shown ++ [(state.clock, report)] } := by
  rw [handle, read]

theorem handle_none {line : List UInt8} (failed : platform.fromStr line = none) :
    state.handle platform line = state := by
  rw [handle, failed]

theorem handle_reports (platform : Platform Report) (state : State) (line : List UInt8) :
    (state.handle platform line).reports = state.reports ++ (platform.fromStr line).toList := by
  cases read : platform.fromStr line with
  | none =>
      rw [handle_none read]
      exact (List.append_nil _).symm
  | some report =>
      rw [handle_some read, reports, reports, List.map_append]
      rfl

theorem Drawn.handle (drawn : state.Drawn) (platform : Platform Report) (line : List UInt8) :
    (state.handle platform line).Drawn := by
  cases read : platform.fromStr line with
  | none =>
      rw [handle_none read]
      exact drawn
  | some report =>
      rw [handle_some read]
      refine ⟨?_, drawn.plotted.update (by decide) drawn.past report, ?_⟩
      · intro entry listed
        rcases List.mem_append.mp listed with old | new
        · exact drawn.past entry old
        · cases List.mem_singleton.mp new
          exact Nat.le_refl _
      · rw [reports, List.map_append]
        exact (congrArg (Option.getD · fun _ => none) List.getLast?_concat).symm

/-- Where the thread is on its connection. -/
structure Shows (readBack : Report → Report) (server : MetricsServer.State Report) (state : State) :
    Prop where
  disconnected : state.connection = none → state.reports.Sublist (displayed readBack server.log)
  connected : ∀ connection, state.connection = some connection → ∃ client earlier lines,
    server.clients[connection.id]? = some client ∧
      connection.Reads readBack server.log client state.reports earlier lines
  drawn : state.Drawn

theorem Shows.sublist (shows : state.Shows readBack server) :
    state.reports.Sublist (displayed readBack server.log) := by
  cases here : state.connection with
  | none => exact shows.disconnected here
  | some connection =>
      obtain ⟨client, earlier, lines, _, reads⟩ := shows.connected connection here
      exact reads.sublist

theorem Shows.grow (shows : state.Shows readBack server) (serves : server.Serves platform sent)
    {later : MetricsServer.State Report} (grows : server.Grows later) :
    state.Shows readBack later := by
  refine ⟨?_, ?_, shows.drawn⟩
  · intro here
    exact (shows.disconnected here).trans (grows.log.sublist.map _)
  · intro connection here
    obtain ⟨client, earlier, lines, found, reads⟩ := shows.connected connection here
    obtain ⟨reached, foundLater, same⟩ := grows.clients found
    have follows := serves.follows client (List.mem_of_getElem? found)
    exact ⟨reached, earlier, lines, foundLater, reads.grow follows grows.log same⟩

/-- The connection is gone, with what was not read of it. -/
theorem Shows.disconnect (drawn : state.Drawn) (part : state.reports.Sublist (displayed readBack server.log)) :
    ({ state with connection := none } : State).Shows readBack server := by
  refine ⟨fun _ => part, ?_, ⟨drawn.past, drawn.plotted, drawn.latest⟩⟩
  intro connection here
  cases here

theorem step_shows (lawful : platform.Lawful readBack) (serves : server.Serves platform sent)
    (shows : state.Shows readBack server) {action : Action}
    (stepped : state.step platform server.clients action = some next) : next.Shows readBack server := by
  cases action with
  | tick elapsed =>
      cases stepped
      refine ⟨shows.disconnected, shows.connected, ?_, shows.drawn.plotted, shows.drawn.latest⟩
      intro entry listed
      exact Nat.le_add_right_of_le (shows.drawn.past entry listed)
  | receive count =>
      obtain ⟨connection, here, moved⟩ := Option.bind_eq_some_iff.mp stepped
      obtain ⟨client, found, received⟩ := Option.bind_eq_some_iff.mp moved
      split at received
      · rename_i inside
        cases received
        refine ⟨?_, ?_, ⟨shows.drawn.past, shows.drawn.plotted, shows.drawn.latest⟩⟩
        · intro gone
          cases gone
        · intro reached same
          cases same
          obtain ⟨known, earlier, lines, foundThere, reads⟩ := shows.connected connection here
          rw [found] at foundThere
          cases foundThere
          exact ⟨client, earlier, lines, found, reads.receive inside⟩
      · cases received
  | readLine =>
      obtain ⟨connection, here, moved⟩ := Option.bind_eq_some_iff.mp stepped
      obtain ⟨⟨line, rest⟩, read, rfl⟩ := Option.map_eq_some_iff.mp moved
      obtain ⟨client, earlier, lines, found, reads⟩ := shows.connected connection here
      have follows := serves.follows client (List.mem_of_getElem? found)
      obtain ⟨message, whole, more⟩ := reads.next lawful serves.encoded follows read
      have drawn := shows.drawn.handle platform line
      refine ⟨?_, ?_, ⟨drawn.past, drawn.plotted, drawn.latest⟩⟩
      · intro gone
        cases gone
      · intro reached same
        cases same
        refine ⟨client, earlier, lines ++ [message], found, ?_⟩
        have reports := handle_reports platform state line
        rw [whole, Option.toList_some] at reports
        rw [← reports] at more
        exact more
  | readEnd =>
      obtain ⟨connection, here, moved⟩ := Option.bind_eq_some_iff.mp stepped
      obtain ⟨client, found, ended⟩ := Option.bind_eq_some_iff.mp moved
      split at ended
      · rename_i place
        obtain ⟨_, _, nothing⟩ := place
        cases ended
        split
        · exact .disconnect shows.drawn shows.sublist
        · rename_i something
          obtain ⟨known, earlier, lines, foundThere, reads⟩ := shows.connected connection here
          have follows := serves.follows known (List.mem_of_getElem? foundThere)
          have last := reads.last lawful serves.encoded follows nothing something
          refine .disconnect (shows.drawn.handle platform connection.buffer) ?_
          rw [handle_reports]
          cases read : platform.fromStr connection.buffer with
          | none =>
              rw [Option.toList_none, List.append_nil]
              exact shows.sublist
          | some report => exact last report read
      · cases ended
  | fail =>
      cases stepped
      exact .disconnect shows.drawn shows.sublist

end State

end EdfPipeline.Gui
