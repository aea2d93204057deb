import Wireline.Table

/-!
# Emitters

An emitter hands events to the listeners of a key, in the order in which they subscribed. A listener
is known by its number and leads to a sink, to which the owner of the emitter passes what is
delivered; every operation here says which sinks it reaches. A one-shot listener is gone after the
first event, and an event reaches it only if its receiver is still awaited.

A collectable event for a key without listeners is kept, up to a limit on the events kept for all
keys together. The next subscriber who asks for history gets what was kept.
-/

set_option autoImplicit false
set_option relaxedAutoImplicit false

namespace Wireline

/-- How long a listener stays. -/
inductive Lifetime
  | persistent
  /-- For one event. Once its receiver is no longer awaited, the event reaches nobody. -/
  | once (awaited : Bool)
  deriving DecidableEq

structure Listener (σ : Type) where
  id : Nat
  sink : σ
  lifetime : Lifetime

namespace Listener

variable {σ : Type}

/-- Whether an event reaches the sink. -/
def isReached (listener : Listener σ) : Bool :=
  listener.lifetime != .once false

/-- Whether the listener stays after an event. -/
def isKept (listener : Listener σ) : Bool :=
  listener.lifetime == .persistent

end Listener

/-- Listeners and kept events of keys. -/
structure Emitter (κ σ ε : Type) where
  /-- The listeners of a key, at least one. -/
  listeners : Table κ (List (Listener σ)) := .empty
  /-- The events kept for a key, at least one, the oldest first. -/
  kept : Table κ (List ε) := .empty
  keptTotal : Nat := 0
  /-- How many events may be kept, if there is a limit. -/
  limit : Option Nat := none
  nextId : Nat := 1

namespace Emitter

variable {κ σ ε : Type} [DecidableEq κ]

/-- An emitter that keeps no more than a number of events. -/
def withLimit (limit : Nat) : Emitter κ σ ε :=
  { limit := some limit }

/-! ### What an emitter holds -/

def listenersOf (emitter : Emitter κ σ ε) (key : κ) : List (Listener σ) :=
  (emitter.listeners.get? key).getD []

def keptFor (emitter : Emitter κ σ ε) (key : κ) : List ε :=
  (emitter.kept.get? key).getD []

def hasListeners (emitter : Emitter κ σ ε) (key : κ) : Bool :=
  !(emitter.listenersOf key).isEmpty

/-- The keys that have listeners. -/
def keys (emitter : Emitter κ σ ε) : List κ :=
  emitter.listeners.keys

omit [DecidableEq κ] in
/-- Whether no further event may be kept. -/
def isFull (emitter : Emitter κ σ ε) : Bool :=
  emitter.limit.any (· ≤ emitter.keptTotal)

/-- Sets the listeners of a key. -/
def setListeners (emitter : Emitter κ σ ε) (key : κ) (listeners : List (Listener σ)) :
    Emitter κ σ ε :=
  { emitter with
    listeners :=
      if listeners.isEmpty then emitter.listeners.erase key
      else emitter.listeners.set key listeners }

/-- Sets the events kept for a key. -/
def setKept (emitter : Emitter κ σ ε) (key : κ) (events : List ε) : Emitter κ σ ε :=
  { emitter with
    kept := if events.isEmpty then emitter.kept.erase key else emitter.kept.set key events
    keptTotal := emitter.keptTotal - (emitter.keptFor key).length + events.length }

/-! ### Subscribing -/

/-- Adds a listener and gives its number. -/
def register (emitter : Emitter κ σ ε) (key : κ) (sink : σ) (lifetime : Lifetime) :
    Emitter κ σ ε × Nat :=
  let id := emitter.nextId
  let emitter := emitter.setListeners key (emitter.listenersOf key ++ [⟨id, sink, lifetime⟩])
  ({ emitter with nextId := id + 1 }, id)

/-- Listens to all coming events of a key. -/
def subscribe (emitter : Emitter κ σ ε) (key : κ) (sink : σ) : Emitter κ σ ε × Nat :=
  emitter.register key sink .persistent

/-- Listens to all coming events of a key, after the events kept for it, which are given out. -/
def subscribeHistoric (emitter : Emitter κ σ ε) (key : κ) (sink : σ) :
    Emitter κ σ ε × Nat × List ε :=
  let history := emitter.keptFor key
  let (emitter, id) := (emitter.setKept key []).subscribe key sink
  (emitter, id, history)

/-- Listens to the next event of a key. -/
def subscribeOnce (emitter : Emitter κ σ ε) (key : κ) (sink : σ) : Emitter κ σ ε × Nat :=
  emitter.register key sink (.once true)

/-- What a one-shot subscriber gets who asks for history. -/
inductive Awaiting (ε : Type)
  /-- The oldest event that was kept. -/
  | event (event : ε)
  /-- A listener for the next one. -/
  | listener (id : Nat)

/-- Takes the oldest event kept for a key, or listens to the next one. -/
def subscribeOnceHistoric (emitter : Emitter κ σ ε) (key : κ) (sink : σ) :
    Emitter κ σ ε × Awaiting ε :=
  match emitter.keptFor key with
  | event :: events => (emitter.setKept key events, .event event)
  | [] =>
    let (emitter, id) := emitter.subscribeOnce key sink
    (emitter, .listener id)

/-- Removes a listener of a key, and says whether it was there. -/
def unsubscribe (emitter : Emitter κ σ ε) (key : κ) (id : Nat) : Emitter κ σ ε × Bool :=
  let listeners := emitter.listenersOf key
  (emitter.setListeners key (listeners.filter (·.id != id)), listeners.any (·.id == id))

/-- The receiver of a one-shot listener is no longer awaited. The listener stays until the next
event. -/
def abandon (emitter : Emitter κ σ ε) (key : κ) (id : Nat) : Emitter κ σ ε :=
  emitter.setListeners key <| (emitter.listenersOf key).map fun listener ↦
    if listener.id = id ∧ listener.lifetime = .once true then
      { listener with lifetime := .once false }
    else listener

/-! ### Emitting -/

/-- Hands an event to the listeners of a key, and gives the sinks it reaches. -/
def emit (emitter : Emitter κ σ ε) (key : κ) : Emitter κ σ ε × List σ :=
  let listeners := emitter.listenersOf key
  (emitter.setListeners key (listeners.filter Listener.isKept),
    (listeners.filter Listener.isReached).map Listener.sink)

/-- Hands an event to the listeners of a key, or keeps it if there are none. -/
def emitCollectable (emitter : Emitter κ σ ε) (key : κ) (event : ε) : Emitter κ σ ε × List σ :=
  if emitter.hasListeners key then emitter.emit key
  else if emitter.isFull then (emitter, [])
  else (emitter.setKept key (emitter.keptFor key ++ [event]), [])

/-- Discards the events kept for a key. -/
def resetCollectable (emitter : Emitter κ σ ε) (key : κ) : Emitter κ σ ε :=
  emitter.setKept key []

end Emitter

end Wireline
