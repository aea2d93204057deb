import Wireline.Transport.Memory

/-!
# Named ends

A `Patchbay` is a transport in memory whose links and peers have labels. An end that takes the label
of another replaces it, and the other is let go of.
-/

set_option autoImplicit false
set_option relaxedAutoImplicit false

namespace Wireline

structure Patchbay (lab : Type) where
  memory : Memory
  links : Table lab Nat := .empty
  peers : Table lab Nat := .empty

namespace Patchbay

variable {lab : Type} [DecidableEq lab]

/-- The end of a side under a label. -/
def end? (bay : Patchbay lab) (label : lab) : Memory.Side → Option Nat
  | .client => bay.links.get? label
  | .server => bay.peers.get? label

/-- Lets go of the end under a label, if there is one. -/
def release (bay : Patchbay lab) (side : Memory.Side) (label : lab) : Patchbay lab :=
  match bay.end? label side, side with
  | none, _ => bay
  | some number, .client =>
    { bay with memory := bay.memory.dropLink number, links := bay.links.erase label }
  | some number, .server =>
    { bay with memory := bay.memory.dropPeer number, peers := bay.peers.erase label }

/-- Tries to open a connection, and labels its link. -/
def connect (bay : Patchbay lab) (label : lab) (url : String) :
    Patchbay lab × Except TransportError Unit :=
  match bay.memory.connect url with
  | (memory, .ok number) =>
    let bay := { bay with memory }.release .client label
    ({ bay with links := bay.links.set label number }, .ok ())
  | (memory, .error error) => ({ bay with memory }, .error error)

/-- Accepts the connection that waits longest, labels its peer, and tells its address. -/
def accept (bay : Patchbay lab) (label : lab) : Patchbay lab × Option String :=
  match bay.memory.accept with
  | (memory, some number) =>
    let bay := { bay with memory }.release .server label
    ({ bay with peers := bay.peers.set label number },
      (memory.connections.get? number).map Connection.url)
  | (memory, none) => ({ bay with memory }, none)

/-- Sends a frame from the end under a label. -/
def send (bay : Patchbay lab) (side : Memory.Side) (label : lab) (frame : Octets) :
    Option (Patchbay lab × Memory.Sending) :=
  (bay.end? label side).map fun number ↦
    let (memory, sending) := bay.memory.send side number frame
    ({ bay with memory }, sending)

/-- Receives a frame at the end under a label. -/
def receive (bay : Patchbay lab) (side : Memory.Side) (label : lab) :
    Option (Patchbay lab × Memory.Receiving) :=
  (bay.end? label side).map fun number ↦
    let (memory, receiving) := bay.memory.receive side number
    ({ bay with memory }, receiving)

end Patchbay

end Wireline
