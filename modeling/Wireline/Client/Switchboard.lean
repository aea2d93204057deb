import Wireline.Client.Emitter

/-!
# Named receivers

A `Switchboard` is an emitter whose sinks have labels. What reaches a persistent listener is written
to a log under its label. A one-shot listener fills the receiver with its label, from which the
event can be taken once.
-/

set_option autoImplicit false
set_option relaxedAutoImplicit false

namespace Wireline

/-- The receiver of a one-shot listener. -/
inductive Receiver (κ ε : Type)
  /-- For the event of a listener of a key. -/
  | waiting (key : κ) (listener : Nat)
  | holding (event : ε)
  /-- The event was taken. -/
  | spent

/-- Where a listener leads. -/
inductive Destination (lab : Type)
  | log (label : lab)
  | receiver (label : lab)

structure Switchboard (κ lab ε : Type) where
  emitter : Emitter κ (Destination lab) ε := {}
  receivers : Table lab (Receiver κ ε) := .empty

namespace Switchboard

variable {κ lab ε : Type} [DecidableEq κ] [DecidableEq lab]

/-- What a receiver has to give. -/
inductive Receipt (ε : Type)
  | event (event : ε)
  /-- The event is still to come. -/
  | empty
  /-- No event will come. -/
  | closed

/-- Takes the event out of a receiver, if there is a receiver with the label. -/
def receive (board : Switchboard κ lab ε) (label : lab) :
    Switchboard κ lab ε × Option (Receipt ε) :=
  match board.receivers.get? label with
  | none => (board, none)
  | some (.holding event) =>
    ({ board with receivers := board.receivers.set label .spent }, some (.event event))
  | some (.waiting key listener) =>
    let listed := (board.emitter.listenersOf key).any (·.id == listener)
    (board, some (if listed then .empty else .closed))
  | some .spent => (board, some .closed)

/-- Drops the receiver with a label, and says whether there was one. -/
def dropReceiver (board : Switchboard κ lab ε) (label : lab) : Switchboard κ lab ε × Bool :=
  match board.receivers.get? label with
  | none => (board, false)
  | some receiver =>
    let emitter := match receiver with
      | .waiting key listener => board.emitter.abandon key listener
      | _ => board.emitter
    (⟨emitter, board.receivers.erase label⟩, true)

/-- Listens to all coming events of a key under a label. -/
def subscribe (board : Switchboard κ lab ε) (key : κ) (label : lab) : Switchboard κ lab ε × Nat :=
  let (emitter, id) := board.emitter.subscribe key (.log label)
  ({ board with emitter }, id)

/-- Listens to all coming events of a key under a label, after the events kept for it, which are
logged at once. -/
def subscribeHistoric (board : Switchboard κ lab ε) (key : κ) (label : lab) :
    Switchboard κ lab ε × Nat × List (lab × ε) :=
  let (emitter, id, history) := board.emitter.subscribeHistoric key (.log label)
  ({ board with emitter }, id, history.map fun event ↦ (label, event))

/-- Makes a receiver for one event of a key, which takes the place of an older one with the label.
-/
def subscribeOnce (board : Switchboard κ lab ε) (key : κ) (label : lab) (historic : Bool) :
    Switchboard κ lab ε :=
  let (emitter, receiver) : Emitter κ (Destination lab) ε × Receiver κ ε :=
    if historic then
      match board.emitter.subscribeOnceHistoric key (.receiver label) with
      | (emitter, .event event) => (emitter, .holding event)
      | (emitter, .listener id) => (emitter, .waiting key id)
    else
      let (emitter, id) := board.emitter.subscribeOnce key (.receiver label)
      (emitter, .waiting key id)
  let (board, _) := dropReceiver { board with emitter } label
  { board with receivers := board.receivers.set label receiver }

/-- Passes an event on to the sinks it reaches. -/
def deliver (board : Switchboard κ lab ε) (event : ε) (sinks : List (Destination lab)) :
    Switchboard κ lab ε × List (lab × ε) :=
  let receivers := sinks.foldl (fun receivers sink ↦
    match sink with
    | .log _ => receivers
    | .receiver label => receivers.set label (.holding event)) board.receivers
  let log := sinks.filterMap fun
    | .log label => some (label, event)
    | .receiver _ => none
  ({ board with receivers }, log)

/-- Hands an event to the listeners of a key. Gives the number of sinks it reaches and the log. -/
def emit (board : Switchboard κ lab ε) (key : κ) (event : ε) :
    Switchboard κ lab ε × Nat × List (lab × ε) :=
  let (emitter, sinks) := board.emitter.emit key
  let (board, log) := deliver { board with emitter } event sinks
  (board, sinks.length, log)

/-- Hands an event to the listeners of a key, or keeps it if there are none. -/
def emitCollectable (board : Switchboard κ lab ε) (key : κ) (event : ε) :
    Switchboard κ lab ε × Nat × List (lab × ε) :=
  let (emitter, sinks) := board.emitter.emitCollectable key event
  let (board, log) := deliver { board with emitter } event sinks
  (board, sinks.length, log)

/-- Removes a listener of a key, and says whether it was there. -/
def unsubscribe (board : Switchboard κ lab ε) (key : κ) (id : Nat) :
    Switchboard κ lab ε × Bool :=
  let (emitter, removed) := board.emitter.unsubscribe key id
  ({ board with emitter }, removed)

/-- Discards the events kept for a key. -/
def resetCollectable (board : Switchboard κ lab ε) (key : κ) : Switchboard κ lab ε :=
  { board with emitter := board.emitter.resetCollectable key }

end Switchboard

end Wireline
