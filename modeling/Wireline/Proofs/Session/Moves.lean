import Wireline.Client.Session.Step

/-!
# The moves of a session

An event makes a session do several things in a row. Each of them is an `Action`, a `Move` says what
one action makes of the state, and a `Path` is a chain of moves whose actions are all permitted.
What moves keep, paths keep (`Path.invariant`), so that a property of sessions is checked for the
actions alone and not for every way in which they are put together.

An action either changes requests, or it changes streams, or it is an aside, which changes neither
(`Aside`). What a session tells its surroundings only grows (`Move.outbox`).
-/

set_option autoImplicit false
set_option relaxedAutoImplicit false

namespace Wireline

namespace Session

/-! ### What a session holds -/

/-- What a session keeps of its requests. -/
def requestState (s : Session) : Emitter Nat Origin Reply × Table Nat Request × Nat :=
  (s.replies, s.inflight, s.nextId)

/-- What a session keeps of its streams. -/
def streamState (s : Session) :
    Emitter Uuid Nat LiveMessage × Table Nat Subscription × Table Nat LiveStream × List Uuid ×
      Nat :=
  (s.live, s.subscriptions, s.streams, s.retired, s.nextHandle)

/-- Whether an effect is about a request. -/
def Effect.isOfRequest : Effect → Bool
  | .send _ | .dispatched .. | .replied .. => true
  | _ => false

/-- The second state came from the first without a change to requests or streams. -/
structure Aside (s t : Session) : Prop where
  requestState : t.requestState = s.requestState
  streamState : t.streamState = s.streamState
  outbox : ∃ effects, t.outbox = s.outbox ++ effects ∧
    ∀ effect ∈ effects, effect.isOfRequest = false

namespace Aside

variable {s t u : Session}

theorem silent (hrequests : t.requestState = s.requestState)
    (hstreams : t.streamState = s.streamState) (houtbox : t.outbox = s.outbox) : Aside s t where
  requestState := hrequests
  streamState := hstreams
  outbox := ⟨[], by rw [houtbox, List.append_nil], by simp⟩

theorem refl (s : Session) : Aside s s :=
  .silent rfl rfl rfl

theorem trans (hst : Aside s t) (htu : Aside t u) : Aside s u where
  requestState := htu.requestState.trans hst.requestState
  streamState := htu.streamState.trans hst.streamState
  outbox := by
    obtain ⟨first, hfirst, hfirstAside⟩ := hst.outbox
    obtain ⟨second, hsecond, hsecondAside⟩ := htu.outbox
    refine ⟨first ++ second, by rw [hsecond, hfirst, List.append_assoc], ?_⟩
    intro effect heffect
    rcases List.mem_append.mp heffect with h | h
    · exact hfirstAside effect h
    · exact hsecondAside effect h

theorem push (s : Session) {effect : Effect} (h : effect.isOfRequest = false) :
    Aside s (s.push effect) where
  requestState := rfl
  streamState := rfl
  outbox := ⟨[effect], rfl, by simpa using h⟩

theorem tell (s : Session) (ticket : Ticket) (answer : Answer) : Aside s (s.tell ticket answer) :=
  push s rfl

theorem setStatus (s : Session) (status : Status) : Aside s (s.setStatus status) := by
  unfold Session.setStatus
  split
  · exact refl s
  · exact (silent rfl rfl rfl : Aside s { s with status }).trans (push _ rfl)

theorem hangUp (s : Session) : Aside s s.hangUp := by
  unfold Session.hangUp
  split
  · exact refl s
  · exact (silent rfl rfl rfl : Aside s { s with link := .none }).trans (push _ rfl)

theorem failStanding (s : Session) (method : String) : Aside s (s.failStanding method) := by
  unfold Session.failStanding
  split
  · exact silent rfl rfl rfl
  · exact refl s

/-- Telling the callers of some requests that these are refused. -/
theorem refuseAll (error : ClientError) (calls : List (Ticket × Request)) (s : Session) :
    Aside s (calls.foldl (fun s call ↦ s.tell call.1 (.refused error)) s) := by
  induction calls generalizing s with
  | nil => exact refl s
  | cons call rest ih => exact (tell s call.1 _).trans (ih _)

end Aside

/-! ### Actions -/

/-- One thing that a session does. -/
inductive Action
  /-- Something about neither requests nor streams. -/
  | aside
  | dispatch (origin : Origin) (request : Request)
  | answer (id : Nat) (response : Response)
  /-- Gives a reply to all requests that are not answered. -/
  | giveBack (reply : Reply)
  | notify (message : LiveMessage)
  | register (id : Uuid) (query : Option LiveQuery)
  | close (reason : CloseReason) (handle : Nat)
  | rebind (handle : Nat) (id : Uuid)

/-- What one action makes of a state. -/
inductive Move (s : Session) : Action → Session → Prop
  | aside {t : Session} (h : Aside s t) : Move s .aside t
  | dispatch (origin : Origin) (request : Request) :
      Move s (.dispatch origin request) (s.dispatch origin request).1
  | answer (id : Nat) (response : Response) :
      Move s (.answer id response) (s.routeReply id response)
  | giveBack (reply : Reply) : Move s (.giveBack reply) (s.replyToAll reply)
  | notify (message : LiveMessage) : Move s (.notify message) (s.routeNotification message)
  | register (id : Uuid) (query : Option LiveQuery) :
      Move s (.register id query) (s.register id query).1
  | close (reason : CloseReason) (handle : Nat) :
      Move s (.close reason handle) (s.closeStream reason handle)
  | rebind (handle : Nat) (id : Uuid) : Move s (.rebind handle id) (s.rebind handle id)

/-- A chain of moves, each with an action that is permitted in the state that it starts from. -/
inductive Path (permits : Session → Action → Prop) (s : Session) : Session → Prop
  | refl : Path permits s s
  | tail {t u : Session} {action : Action} :
      Path permits s t → permits t action → Move t action u → Path permits s u

namespace Path

variable {permits : Session → Action → Prop} {s t u : Session}

theorem single {action : Action} (h : permits s action) (hmove : Move s action t) :
    Path permits s t :=
  refl.tail h hmove

theorem trans (hst : Path permits s t) (htu : Path permits t u) : Path permits s u := by
  induction htu with
  | refl => exact hst
  | tail _ h hmove ih => exact ih.tail h hmove

theorem mono {permits' : Session → Action → Prop}
    (h : ∀ s action, permits s action → permits' s action) (hpath : Path permits s t) :
    Path permits' s t := by
  induction hpath with
  | refl => exact refl
  | tail _ hpermits hmove ih => exact ih.tail (h _ _ hpermits) hmove

/-- What every permitted move keeps holds at the end of a path if it holds at the start. -/
theorem invariant (holds : Session → Prop) (hpath : Path permits s t)
    (hmove : ∀ s action t, permits s action → Move s action t → holds s → holds t)
    (hs : holds s) : holds t := by
  induction hpath with
  | refl => exact hs
  | tail _ hpermits hnext ih => exact hmove _ _ _ hpermits hnext ih

end Path

end Session

end Wireline
