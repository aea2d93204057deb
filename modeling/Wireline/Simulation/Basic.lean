import Wireline.Client.Call
import Wireline.Client.Session.Step
import Wireline.Simulation.StreamReader
import Wireline.Transport.Memory

/-!
# Simulations

A `Simulation` is a client and its server in one memory, on a clock that is moved by hand. The calls
of the client are in progress side by side. The server does nothing by itself but accept connections
and note the frames it gets.

Here are the state and what becomes of calls and of the effects of the session. `Quiet` lets things
happen until nothing more can, and `Step` holds what may be done to a simulation.
-/

set_option autoImplicit false
set_option relaxedAutoImplicit false

namespace Wireline

/-- A call in progress. -/
structure PendingCall where
  name : String
  call : Call
  /-- The stream that the call closes, with its name. Nobody reads it meanwhile. -/
  withheld : Option (String × StreamReader) := none

/-- What is seen of a stream. -/
structure StreamReport where
  id : Uuid
  isAlive : Bool
  readings : List Reading

/-- What happened since the last report, and how things stand. -/
structure Report where
  /-- The addresses of the connections that were opened. -/
  accepted : List String := []
  /-- The frames that the server got. -/
  received : List Octets := []
  /-- Whether the client let go of the connection while the server held it. -/
  linkClosed : Bool := false
  /-- The calls that finished. -/
  finished : List (String × Except ClientError Outcome) := []
  streams : List (String × StreamReport) := []
  /-- The status of the client, if there is one. -/
  status : Option Status := none
  connectAttempts : Nat := 0

/-- A client and its server. -/
structure Simulation where
  session : Session
  memory : Memory
  style : ReaderStyle
  /-- The connection whose link the client holds. -/
  link : Option Nat := none
  /-- The connection whose peer the server holds. -/
  peer : Option Nat := none
  /-- Whether somebody holds the client. Calls in progress hold it too. -/
  hasClient : Bool := false
  calls : Table Ticket PendingCall := .empty
  nextTicket : Ticket := 0
  /-- Commands on their way to the session, the oldest first. -/
  commands : List (Ticket × Session.Command) := []
  readers : Table String StreamReader := .empty
  /-- What happened since the last report. -/
  report : Report := {}

namespace Simulation

/-- Tells the session of an event. -/
def notify (simulation : Simulation) (event : Session.Event) : Simulation :=
  { simulation with session := simulation.session.step event }

/-! ### Calls -/

/-- Hands the caller what a call brings: a stream is read from now on, and a client is held. -/
def keep (simulation : Simulation) (name : String) : Outcome → Simulation
  | .stream handle => { simulation with readers := simulation.readers.set name { handle } }
  | .connected => { simulation with hasClient := true }
  | _ => simulation

/-- Ends a call with a result. -/
def finish (simulation : Simulation) (ticket : Ticket) (pending : PendingCall)
    (result : Except ClientError Outcome) : Simulation :=
  let readers := match pending.withheld with
    | some (name, reader) => simulation.readers.set name reader
    | none => simulation.readers
  let report :=
    { simulation.report with finished := simulation.report.finished ++ [(pending.name, result)] }
  let simulation :=
    { simulation with calls := simulation.calls.erase ticket, readers, report }
  match result with
  | .ok outcome => simulation.keep pending.name outcome
  | .error _ => simulation

/-- Lets a call wait for something, and sends its command. -/
def await (simulation : Simulation) (ticket : Ticket) (pending : PendingCall) : Simulation :=
  { simulation with
    calls := simulation.calls.set ticket pending
    commands := simulation.commands ++
      ((pending.call.command? ticket).map (ticket, ·)).toList }

/-- Lets a call go on. -/
def proceed (simulation : Simulation) (ticket : Ticket) (pending : PendingCall) :
    Call.Progress → Simulation
  | .ask call => simulation.await ticket { pending with call }
  | .wait => simulation
  | .finish result => simulation.finish ticket pending result

/-- Starts a call. -/
def begin (simulation : Simulation) (pending : PendingCall) : Simulation :=
  let ticket := simulation.nextTicket
  { simulation with nextTicket := ticket + 1 }.await ticket pending

/-- Tells a call what the session answers. A call that was cancelled is not told. -/
def answer (simulation : Simulation) (ticket : Ticket) (answer : Session.Answer) : Simulation :=
  match simulation.calls.get? ticket with
  | some pending => simulation.proceed ticket pending (pending.call.hear answer)
  | none => simulation

/-- Tells all calls what became of the first link. -/
def announceOpening (simulation : Simulation) (result : Except ClientError Unit) : Simulation :=
  simulation.calls.entries.foldl (fun simulation entry ↦
    simulation.proceed entry.1 entry.2 (entry.2.call.hearOpening result)) simulation

/-- Lets the session take a command. A call whose command finds no session any more is over. -/
def takeCommand (simulation : Simulation) (ticket : Ticket) (command : Session.Command) :
    Simulation :=
  if simulation.session.isOpen then simulation.notify (.command command)
  else
    match simulation.calls.get? ticket with
    | some pending => simulation.finish ticket pending pending.call.orphaned
    | none => simulation

/-! ### Effects -/

/-- Opens a connection, which the server accepts. -/
def dial (simulation : Simulation) (url : String) : Simulation :=
  match simulation.memory.connect url with
  | (memory, .ok number) =>
    let (memory, peer) := memory.accept
    let report := { simulation.report with accepted := simulation.report.accepted ++ [url] }
    { simulation with memory, report, peer, link := some number }.notify .linked
  | (memory, .error error) => { simulation with memory }.notify (.refused error)

/-- Lets go of the link. The server notices if it still holds the peer. -/
def hangUp (simulation : Simulation) : Simulation :=
  match simulation.link with
  | none => simulation
  | some number =>
    let memory := simulation.memory.dropLink number
    if simulation.peer = some number then
      { simulation with
        memory := memory.dropPeer number
        link := none
        peer := none
        report := { simulation.report with linkClosed := true } }
    else { simulation with memory, link := none }

/-- Sends a frame to the server, which takes it at once. -/
def send (simulation : Simulation) (frame : Octets) : Simulation :=
  match simulation.link with
  | none => simulation
  | some number =>
    let (memory, _) := simulation.memory.send .client number frame
    match memory.receive .server number with
    | (memory, .frame frame) =>
      { simulation with
        memory := memory
        report := { simulation.report with received := simulation.report.received ++ [frame] } }
    | (memory, _) => { simulation with memory }

/-- Does what the session wants done. -/
def perform (simulation : Simulation) : Session.Effect → Simulation
  | .dial url => simulation.dial url
  | .hangUp => simulation.hangUp
  | .send outgoing => simulation.send outgoing.frame
  | .replied _ (.caller ticket) reply => simulation.answer ticket (.reply reply)
  | .tell ticket answer => simulation.answer ticket answer
  | .opened => simulation.announceOpening (.ok ())
  | .failedToOpen error => simulation.announceOpening (.error error)
  | .dispatched .. | .replied .. | .status _ | .stopped => simulation

end Simulation

end Wireline
