import EdfPipeline.Library.Framing
import EdfPipeline.Library.TransitionSystem

/-!
# The metrics server

`start_metrics_server`: one task turns the reports of the statistics thread into
lines of JSON and broadcasts them, another accepts clients, and a task for each
client writes what it receives to its stream. A client that falls behind further
than the broadcast channel reaches back is left.
-/

set_option autoImplicit false

namespace EdfPipeline.MetricsServer

open Framing

/-- `serde_json` and the broadcast channel, which may hold more than it was made for.
`toString` is told the order the entries of a map come in, `fromStr` is `from_str` of
a trimmed line. -/
structure Platform (Report : Type) where
  toString : Nat → Report → Option (List UInt8)
  fromStr : List UInt8 → Option Report
  capacity : Nat
  holds : 100 ≤ capacity

def newline : UInt8 := 10

variable {Report : Type}

/-- A document is one line, is read back whole, up to the precision of its numbers, and
not before its end. -/
structure Platform.Lawful (platform : Platform Report) (readBack : Report → Report) : Prop where
  oneLine : ∀ {order report json}, platform.toString order report = some json → newline ∉ json
  line : ∀ {order report json}, platform.toString order report = some json →
    platform.fromStr (json ++ [newline]) = some (readBack report)
  unended : ∀ {order report json}, platform.toString order report = some json →
    platform.fromStr json = some (readBack report)
  cut : ∀ {order report json part}, platform.toString order report = some json → part <+: json →
    part ≠ json → platform.fromStr part = none

/-- A line on the broadcast channel, with the report it was made of. -/
structure Message (Report : Type) where
  report : Report
  json : List UInt8
  deriving DecidableEq

/-- A place in the task of a client. -/
inductive ClientPc where
  | recv
  | write (rest : List UInt8)
  | closed
  deriving DecidableEq

def ClientPc.pending : ClientPc → List UInt8
  | .write rest => rest
  | .recv | .closed => []

/-- `next` is the place of its receiver in the channel, `subscribed` where it began.
`written` is its stream. -/
structure Client where
  subscribed : Nat
  next : Nat
  pc : ClientPc
  written : List UInt8
  deriving DecidableEq

inductive ClientAction where
  | recv
  | write (count : Nat)
  | fail

/-- `finished`: all senders are gone. -/
def Client.step (capacity : Nat) (log : List (Message Report)) (finished : Bool) (client : Client) :
    ClientAction → Option Client
  | .recv =>
      if client.pc = .recv then
        if capacity < log.length - client.next then some { client with pc := .closed }
        else
          match log[client.next]? with
          | some message =>
              some { client with next := client.next + 1, pc := .write (message.json ++ [newline]) }
          | none => if finished then some { client with pc := .closed } else none
      else none
  | .write count =>
      match client.pc with
      | .write rest =>
          if 0 < count ∧ count ≤ rest.length then
            some { client with
              written := client.written ++ rest.take count
              pc := if rest.drop count = [] then .recv else .write (rest.drop count) }
          else none
      | _ => none
  | .fail =>
      match client.pc with
      | .write _ => some { client with pc := .closed }
      | _ => none

inductive ForwarderPc where
  | poll
  | check
  | returned
  deriving DecidableEq

/-- `taken` reports were taken off the metrics channel, `log` is all that was broadcast. -/
structure State (Report : Type) where
  taken : Nat
  forwarder : ForwarderPc
  accepting : Bool
  log : List (Message Report)
  clients : List Client

inductive Action where
  | forward (order : Nat)
  | accept
  | checkRunning
  | client (id : Nat) (action : ClientAction)

namespace State

def initial : State Report where
  taken := 0
  forwarder := .poll
  accepting := true
  log := []
  clients := []

/-- A message goes to those that have subscribed; without any it is lost. -/
def broadcast (state : State Report) (message : Message Report) : State Report :=
  if ∀ client ∈ state.clients, client.pc = .closed then state
  else { state with log := state.log ++ [message] }

/-- The first task. The pipeline keeps a sender, so its channel never disconnects. -/
def forward (platform : Platform Report) (sent : List Report) (running : Bool) (state : State Report)
    (order : Nat) : Option (State Report) :=
  match state.forwarder with
  | .poll =>
      match sent[state.taken]? with
      | none => some { state with forwarder := .check }
      | some report =>
          let state := { state with taken := state.taken + 1, forwarder := .check }
          match platform.toString order report with
          | some json => some (state.broadcast { report, json })
          | none => some state
  | .check => some { state with forwarder := if running then .poll else .returned }
  | .returned => none

def step (platform : Platform Report) (sent : List Report) (running : Bool) (state : State Report) :
    Action → Option (State Report)
  | .forward order => state.forward platform sent running order
  | .accept =>
      if state.accepting then
        some { state with
          clients := state.clients ++
            [{ subscribed := state.log.length, next := state.log.length, pc := .recv, written := [] }] }
      else none
  | .checkRunning =>
      if state.accepting then some { state with accepting := running } else none
  | .client id action =>
      (state.clients[id]?).bind fun client =>
        (client.step platform.capacity state.log
            (state.forwarder = .returned ∧ state.accepting = false) action).map fun next =>
          { state with clients := state.clients.set id next }

end State

/-! ## What a client is written -/

/-- The messages its receiver has taken. -/
def Client.messages (client : Client) (log : List (Message Report)) : List (Message Report) :=
  (log.drop client.subscribed).take (client.next - client.subscribed)

def stream (messages : List (Message Report)) : List UInt8 :=
  frames newline (messages.map Message.json)

theorem stream_append (first second : List (Message Report)) :
    stream (first ++ second) = stream first ++ stream second := by
  rw [stream, List.map_append, frames_append]
  rfl

theorem stream_mono {first second : List (Message Report)} (grown : first <+: second) :
    stream first <+: stream second := frames_mono (grown.map Message.json)

/-- A client is written the messages since it subscribed, in order and without a gap. -/
structure Client.Follows (log : List (Message Report)) (client : Client) : Prop where
  started : client.subscribed ≤ client.next
  reached : client.next ≤ log.length
  whole : client.pc ≠ .closed → client.written ++ client.pc.pending = stream (client.messages log)
  within : client.written <+: stream (client.messages log)

theorem Client.messages_append {client : Client} {log : List (Message Report)}
    (follows : client.Follows log) (later : List (Message Report)) :
    client.messages (log ++ later) = client.messages log := by
  have started := Nat.le_trans follows.started follows.reached
  have count : client.next - client.subscribed ≤ (log.drop client.subscribed).length := by
    rw [List.length_drop]
    exact Nat.sub_le_sub_right follows.reached _
  rw [messages, messages, List.drop_append_of_le_length started, List.take_append_of_le_length count]

theorem Client.Follows.append {client : Client} {log : List (Message Report)}
    (follows : client.Follows log) (later : List (Message Report)) : client.Follows (log ++ later) := by
  have same := messages_append follows later
  refine ⟨follows.started, Nat.le_trans follows.reached ?_, ?_, ?_⟩
  · exact (List.prefix_append log later).length_le
  · rw [same]
    exact follows.whole
  · rw [same]
    exact follows.within

/-- What it is written it keeps. -/
structure Client.Grows (before after : Client) : Prop where
  subscribed : after.subscribed = before.subscribed
  written : before.written <+: after.written

theorem Client.Grows.refl (client : Client) : client.Grows client := ⟨rfl, List.prefix_rfl⟩

theorem Client.step_follows {capacity : Nat} {log : List (Message Report)} {finished : Bool}
    {client next : Client} {action : ClientAction} (follows : client.Follows log)
    (stepped : client.step capacity log finished action = some next) :
    next.Follows log ∧ client.Grows next := by
  have left : ({ client with pc := .closed } : Client).Follows log :=
    ⟨follows.started, follows.reached, fun open_ => absurd rfl open_, follows.within⟩
  cases action with
  | recv =>
      simp only [step] at stepped
      split at stepped
      · rename_i place
        split at stepped
        · cases stepped
          exact ⟨left, rfl, List.prefix_rfl⟩
        · split at stepped
          · rename_i message found
            cases stepped
            obtain ⟨inside, same⟩ := List.getElem?_eq_some_iff.mp found
            have whole := follows.whole (by rw [place]; decide)
            rw [place, ClientPc.pending, List.append_nil] at whole
            have more : ({ client with
                next := client.next + 1, pc := .write (message.json ++ [newline]) } : Client).messages log =
                  client.messages log ++ [message] := by
              simp only [messages, Nat.succ_sub follows.started]
              rw [List.take_add_one, List.getElem?_drop, Nat.add_sub_cancel' follows.started, found]
              rfl
            refine ⟨⟨Nat.le_succ_of_le follows.started, inside, ?_, ?_⟩, rfl, List.prefix_rfl⟩
            · intro _
              rw [more, stream_append, ← whole]
              simp [ClientPc.pending, stream, frames]
            · rw [more]
              exact follows.within.trans (stream_mono (List.prefix_append _ _))
          · split at stepped
            · cases stepped
              exact ⟨left, rfl, List.prefix_rfl⟩
            · cases stepped
      · cases stepped
  | write count =>
      simp only [step] at stepped
      split at stepped
      · rename_i rest place
        split at stepped
        · cases stepped
          have whole := follows.whole (by rw [place]; exact fun same => by cases same)
          rw [place, ClientPc.pending, ← List.take_append_drop count rest, ← List.append_assoc] at whole
          refine ⟨⟨follows.started, follows.reached, ?_, ?_⟩, rfl, List.prefix_append _ _⟩
          · intro _
            refine Eq.trans ?_ whole
            congr 1
            dsimp only
            split
            · rename_i nothing
              exact nothing.symm
            · rfl
          · exact ⟨_, whole⟩
        · cases stepped
      · cases stepped
  | fail =>
      simp only [step] at stepped
      split at stepped
      · cases stepped
        exact ⟨left, rfl, List.prefix_rfl⟩
      · cases stepped

/-! ## What the server broadcasts -/

namespace State

/-- What was broadcast are the lines of some of the reports taken, in order. -/
structure Serves (platform : Platform Report) (sent : List Report) (state : State Report) : Prop where
  taken : state.taken ≤ sent.length
  reports : (state.log.map Message.report).Sublist (sent.take state.taken)
  encoded : ∀ message ∈ state.log, ∃ order, platform.toString order message.report = some message.json
  follows : ∀ client ∈ state.clients, client.Follows state.log

/-- Nothing broadcast or written is taken back, and clients keep their places. -/
structure Grows (before after : State Report) : Prop where
  log : before.log <+: after.log
  clients : ∀ {id : Nat} {client : Client}, before.clients[id]? = some client →
    ∃ next, after.clients[id]? = some next ∧ client.Grows next

theorem Grows.quiet {before after : State Report} (log : after.log = before.log)
    (clients : after.clients = before.clients) : before.Grows after := by
  refine ⟨log ▸ List.prefix_rfl, ?_⟩
  intro id client here
  exact ⟨client, clients ▸ here, .refl client⟩

variable {platform : Platform Report} {sent : List Report} {state : State Report}

theorem Serves.more (serves : state.Serves platform sent) {later : List Report}
    (grown : sent <+: later) : state.Serves platform later := by
  refine { serves with taken := ?_, reports := ?_ }
  · exact Nat.le_trans serves.taken grown.length_le
  · obtain ⟨more, rfl⟩ := grown
    rw [List.take_append_of_le_length serves.taken]
    exact serves.reports

theorem broadcast_serves {message : Message Report} {order : Nat}
    (serves : state.Serves platform sent) (next : sent[state.taken]? = some message.report)
    (encoded : platform.toString order message.report = some message.json) :
    ({ state with taken := state.taken + 1, forwarder := .check } |>.broadcast message).Serves
        platform sent ∧
      state.Grows ({ state with taken := state.taken + 1, forwarder := .check } |>.broadcast message) := by
  obtain ⟨inside, _⟩ := List.getElem?_eq_some_iff.mp next
  have taken : sent.take (state.taken + 1) = sent.take state.taken ++ [message.report] := by
    rw [List.take_add_one, next]
    rfl
  unfold broadcast
  split
  · refine ⟨{ serves with taken := inside, reports := ?_ }, .quiet rfl rfl⟩
    rw [taken]
    exact serves.reports.trans (List.sublist_append_left _ _)
  · refine ⟨⟨inside, ?_, ?_, ?_⟩, ⟨List.prefix_append _ _, fun {_ client} here => ⟨client, here, .refl client⟩⟩⟩
    · rw [taken, List.map_append]
      exact serves.reports.append (.refl _)
    · intro other listed
      rcases List.mem_append.mp listed with old | new
      · exact serves.encoded other old
      · cases List.mem_singleton.mp new
        exact ⟨order, encoded⟩
    · intro client listed
      exact (serves.follows client listed).append _

theorem forward_serves {running : Bool} {order : Nat} {next : State Report}
    (serves : state.Serves platform sent)
    (stepped : state.forward platform sent running order = some next) :
    next.Serves platform sent ∧ state.Grows next := by
  simp only [forward] at stepped
  split at stepped
  · split at stepped
    · cases stepped
      exact ⟨{ serves with }, .quiet rfl rfl⟩
    · rename_i report found
      split at stepped
      · rename_i json encoded
        cases stepped
        exact @broadcast_serves _ _ _ _ { report, json } _ serves found encoded
      · cases stepped
        obtain ⟨inside, _⟩ := List.getElem?_eq_some_iff.mp found
        refine ⟨{ serves with taken := inside, reports := ?_ }, .quiet rfl rfl⟩
        exact serves.reports.trans (List.take_sublist_take_left (Nat.le_succ _))
  · cases stepped
    exact ⟨{ serves with }, .quiet rfl rfl⟩
  · cases stepped

theorem step_serves {running : Bool} {action : Action} {next : State Report}
    (serves : state.Serves platform sent)
    (stepped : state.step platform sent running action = some next) :
    next.Serves platform sent ∧ state.Grows next := by
  cases action with
  | forward order => exact forward_serves serves stepped
  | accept =>
      simp only [step] at stepped
      split at stepped
      · cases stepped
        refine ⟨{ serves with follows := ?_ }, List.prefix_rfl, ?_⟩
        · intro client listed
          rcases List.mem_append.mp listed with old | new
          · exact serves.follows client old
          · cases List.mem_singleton.mp new
            refine ⟨Nat.le_refl _, Nat.le_refl _, ?_, List.nil_prefix⟩
            intro _
            simp [ClientPc.pending, Client.messages, stream, frames]
        · intro id client here
          obtain ⟨inside, _⟩ := List.getElem?_eq_some_iff.mp here
          exact ⟨client, by rw [List.getElem?_append_left inside, here], .refl client⟩
      · cases stepped
  | checkRunning =>
      simp only [step] at stepped
      split at stepped
      · cases stepped
        exact ⟨{ serves with }, .quiet rfl rfl⟩
      · cases stepped
  | client id action =>
      obtain ⟨client, here, moved⟩ := Option.bind_eq_some_iff.mp stepped
      obtain ⟨reached, acted, rfl⟩ := Option.map_eq_some_iff.mp moved
      have own := serves.follows client (List.mem_of_getElem? here)
      obtain ⟨follows, grows⟩ := Client.step_follows own acted
      refine ⟨{ serves with follows := ?_ }, List.prefix_rfl, ?_⟩
      · intro other listed
        rcases List.mem_or_eq_of_mem_set listed with old | rfl
        · exact serves.follows other old
        · exact follows
      · intro other before found
        by_cases same : other = id
        · subst same
          rw [here] at found
          cases found
          obtain ⟨inside, _⟩ := List.getElem?_eq_some_iff.mp here
          exact ⟨reached, List.getElem?_set_self inside, grows⟩
        · exact ⟨before, by rw [List.getElem?_set_ne (Ne.symm same), found], .refl before⟩

theorem initial_serves (platform : Platform Report) (sent : List Report) :
    (initial : State Report).Serves platform sent := by
  refine ⟨Nat.zero_le _, List.nil_sublist _, ?_, ?_⟩
  · intro message listed
    cases listed
  · intro client listed
    cases listed

end State

end EdfPipeline.MetricsServer
