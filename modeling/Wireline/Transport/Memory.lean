import Wireline.Table
import Wireline.Transport.Error
import Wireline.Transport.Health
import Wireline.Transport.Pipe

/-!
# Connections in memory

A `Memory` is a transport without a network. Each connection is a pair of pipes. The client holds
one end of it, a link, and the server the other, a peer. Peers wait in order until the server
accepts them. A number of coming attempts to connect may be told to fail, and all of them fail once
the server no longer accepts peers.
-/

set_option autoImplicit false
set_option relaxedAutoImplicit false

namespace Wireline

/-- A connection: the pipe from the client to the server, and the pipe back. -/
structure Connection where
  url : String
  toServer : Pipe
  toClient : Pipe

namespace Connection

/-- The client lets go of its end. -/
def dropLink (connection : Connection) : Connection :=
  { connection with
    toServer := connection.toServer.dropSender
    toClient := connection.toClient.dropReceiver }

/-- The server lets go of its end. -/
def dropPeer (connection : Connection) : Connection :=
  { connection with
    toServer := connection.toServer.dropReceiver
    toClient := connection.toClient.dropSender }

end Connection

/-- A transport in memory. Connections are numbered in the order in which they were opened. -/
structure Memory where
  capacity : Nat
  /-- How many of the coming attempts to connect fail. -/
  refusals : Nat := 0
  health : Health := {}
  connections : Table Nat Connection := .empty
  nextConnection : Nat := 0
  /-- The peers that are not accepted yet, or none if no peer will be accepted any more. -/
  backlog : Option (List Nat) := some []

namespace Memory

/-- The number of frames a pipe holds if nothing else is asked for. -/
def defaultCapacity : Nat := 256

/-- A transport whose pipes hold a number of frames, at least one. -/
def ofCapacity (capacity : Nat) : Memory :=
  { capacity := max capacity 1 }

def refuseNext (memory : Memory) (count : Nat) : Memory :=
  { memory with refusals := count }

/-- Tries to open a connection, whose link the caller then holds. -/
def connect (memory : Memory) (url : String) : Memory × Except TransportError Nat :=
  let memory := { memory with health := memory.health.recordConnectAttempt }
  if 0 < memory.refusals then
    ({ memory with refusals := memory.refusals - 1 }, .error (.refused url))
  else
    match memory.backlog with
    | none => (memory, .error (.refused (url ++ ": acceptor dropped")))
    | some waiting =>
      let pipe : Pipe := { capacity := memory.capacity }
      let number := memory.nextConnection
      ({ memory with
          connections := memory.connections.set number ⟨url, pipe, pipe⟩
          nextConnection := number + 1
          backlog := some (waiting ++ [number]) }, .ok number)

/-- Accepts the peer that waits longest. -/
def accept (memory : Memory) : Memory × Option Nat :=
  match memory.backlog with
  | some (number :: waiting) => ({ memory with backlog := some waiting }, some number)
  | _ => (memory, none)

/-- Changes a connection. -/
def modify (memory : Memory) (number : Nat) (change : Connection → Connection) : Memory :=
  { memory with connections := memory.connections.modify number change }

def dropLink (memory : Memory) (number : Nat) : Memory :=
  memory.modify number Connection.dropLink

def dropPeer (memory : Memory) (number : Nat) : Memory :=
  memory.modify number Connection.dropPeer

/-- Accepts no more peers. Those that wait are let go. -/
def dropAcceptor (memory : Memory) : Memory :=
  let memory' := (memory.backlog.getD []).foldl dropPeer memory
  { memory' with backlog := none }

/-- The end of a connection that somebody holds. -/
inductive Side
  | client
  | server
  deriving DecidableEq

/-- The pipe into which a side sends. -/
def Side.outgoing : Side → Connection → Pipe
  | .client => Connection.toServer
  | .server => Connection.toClient

/-- The pipe out of which a side receives. -/
def Side.incoming : Side → Connection → Pipe
  | .client => Connection.toClient
  | .server => Connection.toServer

def Side.setOutgoing (side : Side) (pipe : Pipe) (connection : Connection) : Connection :=
  match side with
  | .client => { connection with toServer := pipe }
  | .server => { connection with toClient := pipe }

def Side.setIncoming (side : Side) (pipe : Pipe) (connection : Connection) : Connection :=
  match side with
  | .client => { connection with toClient := pipe }
  | .server => { connection with toServer := pipe }

/-- What came of an attempt to send over a connection. -/
inductive Sending
  | sent
  | full
  | closed
  deriving DecidableEq

/-- What came of an attempt to receive from a connection. -/
inductive Receiving
  | frame (frame : Octets)
  | waiting
  | ended
  deriving DecidableEq

/-- Sends a frame from one side of a connection. -/
def send (memory : Memory) (side : Side) (number : Nat) (frame : Octets) : Memory × Sending :=
  match (memory.connections.get? number).map fun connection ↦
      (side.outgoing connection).send frame with
  | some (.sent pipe) => (memory.modify number (side.setOutgoing pipe), .sent)
  | some .full => (memory, .full)
  | some .closed | none => (memory, .closed)

/-- Receives a frame at one side of a connection. -/
def receive (memory : Memory) (side : Side) (number : Nat) : Memory × Receiving :=
  match (memory.connections.get? number).map fun connection ↦
      (side.incoming connection).receive with
  | some (.frame frame pipe) => (memory.modify number (side.setIncoming pipe), .frame frame)
  | some .waiting => (memory, .waiting)
  | some .ended | none => (memory, .ended)

end Memory

end Wireline
