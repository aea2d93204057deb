import Wireline.Proofs.Session.ExactlyOnce

/-!
# The turns of a session

What a session does on an event depends on its phase. `Turn` lists what there is, each turn with the
phase that it belongs to and the state that it leads to, and `step_turn` says that there is nothing
else between two quiescent states. What holds of steps is proved by going through the turns.
-/

set_option autoImplicit false
set_option relaxedAutoImplicit false

namespace Wireline

namespace Session

/-- The session serves its callers. -/
def IsServing (s : Session) : Prop :=
  ∃ tick, s.phase = .serving tick

/-- The session has lost its link and makes attempts to get back. -/
def IsRecovering (s : Session) : Prop :=
  (∃ wake, s.phase = .backingOff wake) ∨ s.phase = .dialing ∨
    ∃ restoration, s.phase = .restoring restoration

theorem IsRecovering.not_isServing {s : Session} (h : s.IsRecovering) : ¬ s.IsServing := by
  rintro ⟨tick, hphase⟩
  rcases h with ⟨wake, h⟩ | h | ⟨restoration, h⟩ <;> cases hphase.symm.trans h

theorem IsOver.not_isServing {s : Session} (h : s.IsOver) : ¬ s.IsServing := by
  rintro ⟨tick, hphase⟩
  rcases h with h | h <;> cases hphase.symm.trans h

theorem IsOver.not_isRecovering {s : Session} (h : s.IsOver) : ¬ s.IsRecovering := by
  rintro (⟨wake, hphase⟩ | hphase | ⟨restoration, hphase⟩) <;>
    rcases h with h | h <;> cases hphase.symm.trans h

/-- The session itself awaits the answer under an id. -/
def Expects (s : Session) (n : UInt64) : Prop :=
  (n.toNat, .restoration) ∈ s.awaited

/-- The call of a caller that an event brings to a session that takes commands. -/
def taken (s : Session) : Event → Option (Ticket × Request)
  | .command (.request ticket request) => if s.isOpen then some (ticket, request) else none
  | _ => none

/-- The time that passes with an event. -/
def Event.elapsed : Event → Nat
  | .elapse nanoseconds => nanoseconds
  | _ => 0

/-- The circumstances after an event. -/
def Event.leaves : Event → Circumstances → Circumstances
  | .altered circumstances, _ => circumstances
  | _, circumstances => circumstances

/-- What the event makes of a session that has nothing left to do. -/
inductive Turn (s : Session) : Event → Session → Prop
  /-- At most the clock goes on, the circumstances change, or the link takes no more frames. -/
  | rest {event : Event} {t : Session}
      (h : t = { s with
        now := s.now + event.elapsed
        link := t.link
        circumstances := event.leaves s.circumstances })
      (hlink : t.link = .none ↔ s.link = .none) (htaken : s.taken event = none) : Turn s event t
  | started (hphase : s.phase = .unopened) : Turn s .start s.start
  | opened (hphase : s.phase = .opening) : Turn s .linked s.beginServing
  | failed (hphase : s.phase = .opening) (error : TransportError) :
      Turn s (.refused error) (s.failToOpen error)
  /-- A command is obeyed, and nothing follows. -/
  | obeyed {command : Command} (hopen : s.isOpen) (hclose : ∀ ticket, command ≠ .close ticket)
      (hcall : s.IsServing → ∀ ticket request, command ≠ .request ticket request) :
      Turn s (.command command) (s.obey command)
  /-- A request is sent at once. -/
  | called (hphase : s.IsServing) (ticket : Ticket) (request : Request) :
      Turn s (.command (.request ticket request)) (s.dispatchCall ticket request).attend
  /-- A keep-alive is due. -/
  | pinged {tick : Nat} (hphase : s.IsServing) (nanoseconds : Nat) :
      Turn s (.elapse nanoseconds)
        { { s with now := s.now + nanoseconds }.ping with phase := .serving tick }.attend
  | notified {frame : Octets} {message : LiveMessage} (hphase : s.link ≠ .none)
      (hread : read frame = .ok (.notification message)) :
      Turn s (.frame frame) (s.routeNotification message)
  /-- A request of somebody else than the session itself is answered. -/
  | answered {frame : Octets} {n : UInt64} {response : Response}
      (hphase : s.IsServing ∨ s.IsRecovering ∧ ¬ s.Expects n)
      (hread : read frame = .ok (.reply n response)) :
      Turn s (.frame frame) (s.routeReply n.toNat response)
  | lost (hphase : s.IsServing) : Turn s .lost s.lose
  | lostAgain {restoration : Restoration} (hphase : s.phase = .restoring restoration) :
      Turn s .lost s.loseAgain
  /-- The time for the next attempt has come. -/
  | dialed {wake : Nat} (hphase : s.phase = .backingOff wake) (nanoseconds : Nat) :
      Turn s (.elapse nanoseconds)
        ({ s with now := s.now + nanoseconds, phase := .dialing }.push (.dial s.url))
  | refused (hphase : s.phase = .dialing) (error : TransportError) :
      Turn s (.refused error) s.retryLater
  /-- A fresh link is to be restored. -/
  | linked (hphase : s.phase = .dialing) :
      Turn s .linked (s.attach.restore s.standing.restoreRequests)
  /-- The call that the session awaits is answered. -/
  | restored {frame : Octets} {n : UInt64} {response : Response} {restoration : Restoration}
      (hphase : s.phase = .restoring restoration) (hexpected : s.Expects n)
      (hread : read frame = .ok (.reply n response)) :
      Turn s (.frame frame) ((s.routeReply n.toNat response).attendRestoration
        { restoration with answer := some response })
  /-- The connection is given up. -/
  | ended {event : Event} {u : Session}
      (h : u = { s with
        now := s.now + event.elapsed
        closer := u.closer
        circumstances := event.leaves s.circumstances })
      (hphase : s.IsServing ∨ s.IsRecovering) (htaken : s.taken event = none)
      (reason : DisconnectReason) : Turn s event (u.shutdown reason)
  /-- The session was given up before, and ends. -/
  | stopped {event : Event} {u : Session}
      (h : u = { s with
        now := s.now + event.elapsed
        closer := u.closer
        circumstances := event.leaves s.circumstances })
      (hphase : s.phase = .settled) (htaken : s.taken event = none) : Turn s event u.stop

/-- Nothing at all happens. -/
theorem Turn.idle {s : Session} {event : Event} (helapsed : event.elapsed = 0)
    (hleaves : event.leaves s.circumstances = s.circumstances) (htaken : s.taken event = none) :
    Turn s event s := by
  refine .rest ?_ Iff.rfl htaken
  rw [helapsed, hleaves]
  rfl

/-- A quiescent session has nothing to be looked after. -/
theorem Quiescent.settle_eq {s : Session} (h : s.Quiescent) : s.settle = s := by
  cases hs : s.phase with
  | serving tick => exact h.settle_eq_self (.inl ⟨tick, hs⟩)
  | restoring restoration => exact h.settle_eq_self (.inr ⟨restoration, hs⟩)
  | backingOff wake =>
    have hcloser := (h.unlinked (.inr (.inr (.inl ⟨wake, hs⟩)))).closer
    simp [settle, hs, hcloser]
  | dialing =>
    have hcloser := (h.unlinked (.inr (.inr (.inr (.inl hs))))).closer
    simp [settle, hs, hcloser]
  | settled =>
    have hcloser := (h.unlinked (.inr (.inr (.inr (.inr hs))))).closer
    simp [settle, hs, hcloser]
  | _ => simp only [settle, hs]

section Turns

variable {s : Session}

theorem isOpen_cases (h : s.isOpen) : s.IsServing ∨ s.IsRecovering ∨ s.phase = .settled := by
  unfold isOpen at h
  cases hs : s.phase with
  | serving tick => exact .inl ⟨tick, hs⟩
  | backingOff wake => exact .inr (.inl (.inl ⟨wake, hs⟩))
  | dialing => exact .inr (.inl (.inr (.inl hs)))
  | restoring restoration => exact .inr (.inl (.inr (.inr ⟨restoration, hs⟩)))
  | settled => exact .inr (.inr rfl)
  | _ => simp [hs] at h

/-- To obey changes neither requests nor what the session is about, unless a request is sent or the
session is to close. -/
theorem obey_quiescent (h : s.Quiescent) {command : Command}
    (hclose : ∀ ticket, command ≠ .close ticket)
    (hcall : s.IsServing → ∀ ticket request, command ≠ .request ticket request) :
    (s.obey command).Quiescent := by
  cases command with
  | request ticket request =>
    simp only [obey, Session.request]
    split
    · next tick hs => exact absurd rfl (hcall ⟨tick, hs⟩ ticket request)
    all_goals exact h.congr rfl rfl
  | subscribe ticket id query =>
    simp only [obey, subscribe]
    split <;> exact h.congr rfl rfl
  | kill ticket handle =>
    have hstreams := StreamsOnly.closeStream s .killed handle
    exact h.congr hstreams.controlState (inflight_eq_of_requestState hstreams.requestState)
  | standing ticket => exact h.congr rfl rfl
  | close ticket => exact absurd rfl (hclose ticket)

theorem close_turn (h : s.Quiescent) (hopen : s.isOpen) (ticket : Ticket) :
    Turn s (.command (.close ticket)) { s with closer := some ticket }.settle := by
  generalize hu : { s with closer := some ticket } = u
  have hcloser : u.closer.isSome = true := by simp [← hu]
  have hphase : u.phase = s.phase := by rw [← hu]
  have hclosing : u = { s with
      now := s.now + (Event.command (.close ticket)).elapsed
      closer := u.closer
      circumstances := (Event.command (.close ticket)).leaves s.circumstances } := by
    rw [← hu]
    rfl
  rcases isOpen_cases hopen with ⟨tick, hs⟩ | (⟨wake, hs⟩ | hs | ⟨restoration, hs⟩) | hs
  · simp only [settle, hphase, hs, attend, hcloser, if_true]
    exact .ended hclosing (.inl ⟨tick, hs⟩) rfl .closed
  · simp only [settle, hphase, hs, hcloser, if_true]
    exact .ended hclosing (.inr (.inl ⟨wake, hs⟩)) rfl .closed
  · simp only [settle, hphase, hs, hcloser, if_true]
    exact .ended hclosing (.inr (.inr (.inl hs))) rfl .closed
  · have hanswer := (h.linked_of_restoring hs).2
    simp only [settle, hphase, hs, attendRestoration, hanswer, hcloser, if_true]
    exact .ended hclosing (.inr (.inr (.inr ⟨restoration, hs⟩))) rfl .closed
  · simp only [settle, hphase, hs, hcloser, if_true]
    exact .stopped hclosing hs rfl

theorem called_turn {tick : Nat} (hs : s.phase = .serving tick) (ticket : Ticket)
    (request : Request) :
    Turn s (.command (.request ticket request)) (s.obey (.request ticket request)).settle := by
  have hserving : (s.dispatchCall ticket request).phase = .serving tick :=
    (dispatchCall_phase s ticket request).trans hs
  simp only [obey, Session.request, hs, settle, hserving]
  exact .called ⟨tick, hs⟩ ticket request

theorem command_turn (h : s.Quiescent) (command : Command) :
    Turn s (.command command) (s.step (.command command)) := by
  simp only [step]
  split
  · next hopen =>
    have hquiet (hclose : ∀ ticket, command ≠ .close ticket)
        (hcall : s.IsServing → ∀ ticket request, command ≠ .request ticket request) :
        Turn s (.command command) (s.obey command).settle := by
      rw [(obey_quiescent h hclose hcall).settle_eq]
      exact .obeyed hopen hclose hcall
    cases command with
    | request ticket request =>
      by_cases hserving : s.IsServing
      · obtain ⟨tick, hs⟩ := hserving
        exact called_turn hs ticket request
      · exact hquiet (by simp) fun hs ↦ absurd hs hserving
    | close ticket => exact close_turn h hopen ticket
    | _ => exact hquiet (by simp) (by simp)
  · next hclosed =>
    refine .idle rfl rfl ?_
    unfold taken
    split
    · exact if_neg hclosed
    · rfl

/-! ### Frames -/

/-- An answer is led back without a word about the link. -/
theorem routeReply_isBroken (s : Session) (id : Nat) (response : Response) :
    (s.routeReply id response).isBroken = s.isBroken := by
  have hdeliver (t : Session) (origin : Origin) :
      (deliver id (.response response) t origin).isBroken = t.isBroken := by
    simp only [deliver, setAnswer]
    split
    · split <;> rfl
    · rfl
  unfold routeReply
  split
  · rfl
  · exact foldl_keeps isBroken hdeliver _ _

theorem routeReply_quiescent (h : s.Quiescent) {id : Nat} {response : Response}
    (hphase : (s.routeReply id response).phase = s.phase)
    (hlinked : s.IsServing ∨ ∃ restoration, s.phase = .restoring restoration) :
    (s.routeReply id response).Quiescent := by
  have hrequests := RequestsOnly.routeReply s id response
  have hcontrol : (s.routeReply id response).controlState = s.controlState := by
    rw [controlState, hphase, hrequests.link, routeReply_isBroken, hrequests.closer, controlState]
  rcases hlinked with ⟨tick, hs⟩ | ⟨restoration, hs⟩
  · rw [Quiescent, hphase, hs]
    exact (h.linked_of_serving hs).congr hcontrol
  · rw [Quiescent, hphase, hs]
    exact ⟨(h.linked_of_restoring hs).1.congr hcontrol, (h.linked_of_restoring hs).2⟩

theorem frame_turn (h : s.Quiescent) (haccounted : s.Accounted)
    (hlinked : s.IsServing ∨ ∃ restoration, s.phase = .restoring restoration) (frame : Octets) :
    Turn s (.frame frame) (s.receive frame) := by
  have hlink : s.link ≠ .none := by
    rcases hlinked with ⟨tick, hs⟩ | ⟨restoration, hs⟩
    · exact (h.linked_of_serving hs).link
    · exact (h.linked_of_restoring hs).1.link
  have hphase : s.IsServing ∨ s.IsRecovering := hlinked.imp_right fun hs ↦ .inr (.inr hs)
  unfold receive
  cases hread : read frame with
  | error error => exact .ended rfl hphase rfl .protocol
  | ok inbound =>
    cases inbound with
    | notification message =>
      have hstreams := StreamsOnly.routeNotification s message
      have hquiescent : (s.routeNotification message).Quiescent :=
        h.congr hstreams.controlState (inflight_eq_of_requestState hstreams.requestState)
      simp only [route, hquiescent.settle_eq]
      exact .notified hlink hread
    | reply n response =>
      simp only [route]
      rcases routeReply_phase s n.toNat response with hsame | ⟨hexpected, restoration, hs, hnoted⟩
      · by_cases hawaited : s.IsServing ∨ s.IsRecovering ∧ ¬ s.Expects n
        · rw [(routeReply_quiescent h hsame hlinked).settle_eq]
          exact .answered hawaited hread
        · -- an answer that is awaited is noted, and so the phase does not stay as it was
          rw [not_or] at hawaited
          obtain ⟨restoration, hs⟩ := hlinked.resolve_left hawaited.1
          have hexpected : s.Expects n := Classical.byContradiction fun hnot ↦
            hawaited.2 ⟨hphase.resolve_left hawaited.1, hnot⟩
          rw [haccounted.routeReply_restoring hexpected hs response, hs] at hsame
          cases (Phase.restoring.inj hsame) ▸ (h.linked_of_restoring hs).2
      · simp only [settle, hnoted]
        exact .restored hs hexpected hread

/-! ### Time -/

theorem elapse_turn (nanoseconds : Nat) :
    Turn s (.elapse nanoseconds) (s.step (.elapse nanoseconds)) := by
  simp only [step]
  split
  · simp only [wake]
    split
    · next tick hs => exact .pinged ⟨tick, hs⟩ nanoseconds
    · next wake hs => exact .dialed hs nanoseconds
    · exact .rest rfl Iff.rfl rfl
  · exact .rest rfl Iff.rfl rfl

end Turns

/-! ### Events -/

/-- Every step between quiescent states is a turn. -/
theorem step_turn {s : Session} (h : s.Quiescent) (haccounted : s.Accounted) (event : Event) :
    Turn s event (s.step event) := by
  cases event with
  | start =>
    simp only [step]
    split
    · next hs => exact .started hs
    · exact .idle rfl rfl rfl
  | command command => exact command_turn h command
  | abandoned =>
    simp only [step]
    split
    · next tick hs => exact .ended rfl (.inl ⟨tick, hs⟩) rfl .closed
    · next wake hs => exact .ended rfl (.inr (.inl ⟨wake, hs⟩)) rfl .closed
    · next hs => exact .ended rfl (.inr (.inr (.inl hs))) rfl .closed
    · next restoration hs => exact .ended rfl (.inr (.inr (.inr ⟨restoration, hs⟩))) rfl .closed
    · next hs => exact .stopped rfl hs rfl
    · exact .idle rfl rfl rfl
  | linked =>
    simp only [step]
    split
    · next hs => exact .opened hs
    · next hs => exact .linked hs
    · exact .idle rfl rfl rfl
  | refused error =>
    simp only [step]
    split
    · next hs => exact .failed hs error
    · next hs => exact .refused hs error
    · exact .idle rfl rfl rfl
  | frame frame =>
    simp only [step]
    split
    · next tick hs => exact frame_turn h haccounted (.inl ⟨tick, hs⟩) frame
    · next restoration hs => exact frame_turn h haccounted (.inr ⟨restoration, hs⟩) frame
    · exact .idle rfl rfl rfl
  | severed =>
    simp only [step]
    split
    · exact .idle rfl rfl rfl
    · next hlink =>
      refine .rest rfl ⟨fun h ↦ ?_, fun h ↦ absurd h hlink⟩ rfl
      cases h
  | lost =>
    simp only [step]
    split
    · next tick hs => exact .lost ⟨tick, hs⟩
    · next restoration hs => exact .lostAgain hs
    · exact .idle rfl rfl rfl
  | elapse nanoseconds => exact elapse_turn nanoseconds
  | altered circumstances => exact .rest rfl Iff.rfl rfl

theorem Quiescent.link_of_isOver {s : Session} (h : s.Quiescent) (hover : s.IsOver) :
    s.link = .none := by
  rcases hover with hphase | hphase
  · exact (h.unlinked (.inr (.inr (.inr (.inr hphase))))).link
  · rw [Quiescent, hphase] at h
    exact h.1

/-- A session that is over stays so. -/
theorem Turn.isOver {s t : Session} {event : Event} (h : Turn s event t) (hs : s.Quiescent)
    (hover : s.IsOver) : t.IsOver := by
  have hserving := hover.not_isServing
  have hrecovering := hover.not_isRecovering
  cases h with
  | rest heq _ _ =>
    rw [heq]
    exact hover
  | obeyed _ _ _ =>
    rw [IsOver, (obey_keeps s _).1]
    exact hover
  | notified hlinked _ => exact absurd (hs.link_of_isOver hover) hlinked
  | started hphase | opened hphase | failed hphase _ =>
    rcases hover with h | h <;> cases hphase.symm.trans h
  | called hphase _ _ | pinged hphase _ | lost hphase => exact absurd hphase hserving
  | answered hphase _ => exact absurd hphase (by simp [hserving, hrecovering])
  | dialed hphase _ => exact absurd (.inl ⟨_, hphase⟩) hrecovering
  | refused hphase _ | linked hphase => exact absurd (.inr (.inl hphase)) hrecovering
  | lostAgain hphase | restored hphase _ _ => exact absurd (.inr (.inr ⟨_, hphase⟩)) hrecovering
  | ended _ _ _ reason => exact shutdown_isOver _ reason
  | stopped _ _ _ => exact .inr (stop_phase _)

/-! ### Runs -/

theorem run_append (s : Session) (first second : List Event) :
    s.run (first ++ second) = (s.run first).run second :=
  List.foldl_append

theorem run_concat (s : Session) (events : List Event) (event : Event) :
    s.run (events ++ [event]) = (s.run events).step event :=
  run_append s events [event]

end Session

end Wireline
