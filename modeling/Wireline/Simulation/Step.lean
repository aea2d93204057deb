import Wireline.Simulation.Quiet

/-!
# What may be done to a simulation

A simulation begins with the call that connects the client. Then calls are started and cancelled,
the server acts, time passes, and streams and the client are let go. After each of these, things
happen until nothing more can, and `Simulation.takeReport` tells what was seen.
-/

set_option autoImplicit false
set_option relaxedAutoImplicit false

namespace Wireline

namespace Simulation

/-! ### The client -/

/-- The name of the call that connects the client. -/
def connectName : String := "connect"

/-- Starts to connect a client. A configuration with a fault ends the call at once. -/
def connect (url : String) (config : ClientConfig) (payloadLimit : Option Nat) (memory : Memory)
    (style : ReaderStyle) : Simulation :=
  let simulation : Simulation := { session := .ofConfig url config payloadLimit, memory, style }
  let pending : PendingCall := { name := connectName, call := .connect config }
  match config.validate with
  | .ok () => ((simulation.begin pending).notify .start).quiet
  | .error error => simulation.finish simulation.nextTicket pending (.error error)

/-- Starts a call of the client. -/
def start (simulation : Simulation) (name : String) (call : Call) : Simulation :=
  (simulation.begin { name, call }).quiet

/-- Starts to close a stream, which nobody reads until that is done. Without such a stream nothing
happens. -/
def startKill (simulation : Simulation) (name stream : String) : Simulation :=
  match simulation.readers.get? stream with
  | none => simulation
  | some reader =>
    let simulation := { simulation with readers := simulation.readers.erase stream }
    let call := Call.killing reader.handle
    (simulation.begin { name, call, withheld := some (stream, reader) }).quiet

/-- Gives up a call in progress. What it asked of the session is done all the same. -/
def cancel (simulation : Simulation) (name : String) : Simulation :=
  let calls := ⟨simulation.calls.entries.filter fun entry ↦ entry.2.name ≠ name⟩
  { simulation with calls }.quiet

/-- Lets go of a stream. -/
def dropStream (simulation : Simulation) (name : String) : Simulation :=
  { simulation with readers := simulation.readers.erase name }

/-- Lets go of the client. -/
def dropClient (simulation : Simulation) : Simulation :=
  { simulation with hasClient := false }.quiet

/-! ### Time -/

/-- Moves the clock in one jump. -/
def advance (simulation : Simulation) (nanoseconds : Nat) : Simulation :=
  (simulation.notify (.elapse nanoseconds)).quiet

/-! ### The server -/

/-- What the server may do. -/
inductive ServerAction
  /-- Sends a frame, which is lost if there is no room for it. -/
  | send (frame : Octets)
  /-- Lets go of its peer. -/
  | disconnect
  /-- Refuses a number of coming connections. -/
  | refuse (count : Nat)
  /-- Accepts no more connections. -/
  | close

/-- Does one thing at the server, if it can: without a peer there is nothing to send over and
nothing to let go of. -/
def act (simulation : Simulation) : ServerAction → Option Simulation
  | .send frame => simulation.peer.map fun number ↦
      { simulation with memory := (simulation.memory.send .server number frame).1 }
  | .disconnect => simulation.peer.map fun number ↦
      { simulation with memory := simulation.memory.dropPeer number, peer := none }.notify .severed
  | .refuse count => some { simulation with memory := simulation.memory.refuseNext count }
  | .close => some { simulation with memory := simulation.memory.dropAcceptor }

/-- Does one thing after another at the server, and says whether all could be done. -/
def actAll (simulation : Simulation) (actions : List ServerAction) : Simulation × Bool :=
  actions.foldl (fun (simulation, succeeded) action ↦
    match simulation.act action with
    | some simulation => (simulation, succeeded)
    | none => (simulation, false)) (simulation, true)

/-- Does one thing after another at the server before the client notices any of it, and says whether
all could be done. -/
def serve (simulation : Simulation) (actions : List ServerAction) : Simulation × Bool :=
  let (simulation, succeeded) := simulation.actAll actions
  (simulation.quiet, succeeded)

/-! ### What is seen -/

/-- The text of the client's state. -/
def describeClient (simulation : Simulation) : String :=
  "Client \x7b status: " ++ simulation.session.status.name.capitalize ++ ", .. \x7d"

/-- What is seen of one stream, and the reader that has seen it. -/
def readStream (simulation : Simulation) (reader : StreamReader) :
    Option (StreamReader × StreamReport) :=
  (simulation.session.streams.get? reader.handle).map fun stream ↦
    let (reader, readings) := reader.read simulation.style stream
    (reader, ⟨stream.id, stream.isAlive, readings⟩)

/-- Tells what was seen since the last time. -/
def takeReport (simulation : Simulation) : Simulation × Report :=
  let seen := simulation.readers.entries.filterMap fun (name, reader) ↦
    (simulation.readStream reader).map (name, ·)
  let report :=
    { simulation.report with
      streams := seen.map fun (name, _, report) ↦ (name, report)
      status := if simulation.hasClient then some simulation.session.status else none
      connectAttempts := simulation.memory.health.connectAttempts }
  ({ simulation with
      readers := ⟨seen.map fun (name, reader, _) ↦ (name, reader)⟩
      report := {} }, report)

end Simulation

end Wireline
