import Wireline.Simulation.Basic

/-!
# Letting things happen

At each time of its clock, a simulation goes on until nothing more can happen (`Simulation.quiet`).
The session comes first: what it wants done is done, then it reads the frames that have come in,
then it does what is due. Only when it has nothing to do does it take the commands of the callers,
in order.
-/

set_option autoImplicit false
set_option relaxedAutoImplicit false

namespace Wireline

namespace Simulation

/-- Lets the session read a frame, or notice that the link is gone, if there is one or the other. -/
def readFrame (simulation : Simulation) : Option Simulation :=
  simulation.link.bind fun number ↦
    match simulation.memory.receive .client number with
    | (memory, .frame frame) => some ({ simulation with memory }.notify (.frame frame))
    | (_, .ended) => some (simulation.notify .lost)
    | (_, .waiting) => none

/-- Tells a call that waits for the status of the connection, if there is one that it concerns. -/
def observe (simulation : Simulation) : Option Simulation :=
  simulation.calls.entries.findSome? fun entry ↦
    match entry.2.call.observe simulation.session.status with
    | .finish result => some (simulation.finish entry.1 entry.2 result)
    | _ => none

/-- Whether nobody holds the client any more. -/
def isAbandoned (simulation : Simulation) : Bool :=
  !simulation.hasClient && simulation.calls.entries.isEmpty

/-- The next thing that happens at this time, if there is one. -/
def next (simulation : Simulation) : Option Simulation :=
  match simulation.session.outbox with
  | effect :: outbox =>
    some ({ simulation with session := { simulation.session with outbox } }.perform effect)
  | [] =>
    match simulation.readFrame with
    | some simulation => some simulation
    | none =>
      if simulation.session.isDue then some (simulation.notify (.elapse 0))
      else
        match simulation.observe with
        | some simulation => some simulation
        | none =>
          match simulation.commands with
          | (ticket, command) :: commands =>
            some ({ simulation with commands }.takeCommand ticket command)
          | [] =>
            if simulation.isAbandoned && simulation.session.isOpen then
              some (simulation.notify .abandoned)
            else none

/-- Lets a number of things happen, as far as there are so many. -/
def follow (simulation : Simulation) : Nat → Simulation
  | 0 => simulation
  | count + 1 =>
    match simulation.next with
    | some simulation => simulation.follow count
    | none => simulation

/-- A simulation in which more than this happens at one time is not followed to the end. -/
def patience : Nat := 10000000

/-- Lets things happen until nothing more can. -/
def quiet (simulation : Simulation) : Simulation :=
  simulation.follow patience

end Simulation

end Wireline
