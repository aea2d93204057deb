import Wireline.Octets

/-!
# Pipes

A pipe takes frames at one end and gives them out in order at the other. It holds a bounded number
of frames. What was sent before the sender let go is still received; once the receiver has let go,
nothing can be sent.
-/

set_option autoImplicit false
set_option relaxedAutoImplicit false

namespace Wireline

structure Pipe where
  capacity : Nat
  queue : List Octets := []
  /-- Whether frames may still come. -/
  hasSender : Bool := true
  /-- Whether somebody may still take frames out. -/
  hasReceiver : Bool := true

namespace Pipe

/-- What came of an attempt to send. -/
inductive Sending
  | sent (pipe : Pipe)
  /-- There is no room for a frame at the moment. -/
  | full
  | closed

/-- What came of an attempt to receive. -/
inductive Receiving
  | frame (frame : Octets) (pipe : Pipe)
  /-- There is nothing to take out at the moment. -/
  | waiting
  /-- There is nothing to take out and nothing will come. -/
  | ended

def send (pipe : Pipe) (frame : Octets) : Sending :=
  if !pipe.hasReceiver then .closed
  else if pipe.capacity ≤ pipe.queue.length then .full
  else .sent { pipe with queue := pipe.queue ++ [frame] }

def receive (pipe : Pipe) : Receiving :=
  match pipe.queue with
  | frame :: queue => .frame frame { pipe with queue }
  | [] => if pipe.hasSender then .waiting else .ended

/-- The sender lets go. -/
def dropSender (pipe : Pipe) : Pipe :=
  { pipe with hasSender := false }

/-- The receiver lets go, and frames that are waiting are lost. -/
def dropReceiver (pipe : Pipe) : Pipe :=
  { pipe with hasReceiver := false, queue := [] }

end Pipe

end Wireline
