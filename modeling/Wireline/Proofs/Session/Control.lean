import Wireline.Proofs.Session.Moves
import Wireline.Proofs.Table

/-!
# What moves leave alone

Closing streams does not touch requests, answering requests does not touch streams, and neither
touches how the session stands to its link (`controlState`). A dispatch finds a link broken only if
it takes no more frames (`dispatch_isBroken`), and only the answer to a call of the session itself
is noted in its phase (`routeReply_phase`). What a notification can do to streams is said once
(`routeNotification_cases`), and so is what any move is to them (`Move.onStreams`).
-/

set_option autoImplicit false
set_option relaxedAutoImplicit false

namespace Wireline

namespace Session

/-- How a session stands to its link, and what it is about. -/
def controlState (s : Session) : Phase × Link × Bool × Option Ticket :=
  (s.phase, s.link, s.isBroken, s.closer)

theorem phase_eq_of_controlState {s t : Session} (h : t.controlState = s.controlState) :
    t.phase = s.phase :=
  congrArg Prod.fst h

theorem link_eq_of_controlState {s t : Session} (h : t.controlState = s.controlState) :
    t.link = s.link :=
  congrArg (·.2.1) h

theorem isBroken_eq_of_controlState {s t : Session} (h : t.controlState = s.controlState) :
    t.isBroken = s.isBroken :=
  congrArg (·.2.2.1) h

theorem closer_eq_of_controlState {s t : Session} (h : t.controlState = s.controlState) :
    t.closer = s.closer :=
  congrArg (·.2.2.2) h

theorem inflight_eq_of_requestState {s t : Session} (h : t.requestState = s.requestState) :
    t.inflight = s.inflight :=
  congrArg (·.2.1) h

/-- A relation that each step of a fold keeps, and that goes from one step to the next, relates the
end of the fold to its start. -/
theorem foldl_related {α : Type} {r : Session → Session → Prop} (hrefl : ∀ s, r s s)
    (htrans : ∀ {s t u}, r s t → r t u → r s u) {f : Session → α → Session}
    (hf : ∀ s a, r s (f s a)) (items : List α) (s : Session) : r s (items.foldl f s) := by
  induction items generalizing s with
  | nil => exact hrefl s
  | cons item rest ih => exact htrans (hf s item) (ih _)

/-! ### Asides -/

@[simp] theorem setStatus_controlState (s : Session) (status : Status) :
    (s.setStatus status).controlState = s.controlState := by
  unfold setStatus
  split <;> rfl

@[simp] theorem hangUp_link (s : Session) : s.hangUp.link = .none := by
  unfold hangUp
  split
  · assumption
  · rfl

theorem hangUp_closer (s : Session) : s.hangUp.closer = s.closer := by
  unfold hangUp
  split <;> rfl

@[simp] theorem failStanding_controlState (s : Session) (method : String) :
    (s.failStanding method).controlState = s.controlState := by
  unfold failStanding
  split <;> rfl

theorem refuseAll_controlState (error : ClientError) (calls : List (Ticket × Request))
    (s : Session) :
    (calls.foldl (fun s call ↦ s.tell call.1 (.refused error)) s).controlState =
      s.controlState := by
  induction calls generalizing s with
  | nil => rfl
  | cons call rest ih => exact ih _

/-! ### Notifications -/

/-- The state in which the listeners of a query have been told of a notification. -/
def announce (s : Session) (message : LiveMessage) : Session :=
  (s.live.emitCollectable message.id message).2.foldl (deliverTo message)
    { s with live := (s.live.emitCollectable message.id message).1 }

/-- A notification is dropped or announced. Once the last one of a query is announced, the query is
ended. -/
theorem routeNotification_cases (s : Session) (message : LiveMessage) :
    s.routeNotification message = s ∨
    message.id ∉ s.retired ∧ message.action ≠ .killed ∧
      s.routeNotification message = s.announce message ∨
    message.id ∉ s.retired ∧ message.action = .killed ∧
      s.routeNotification message = (s.announce message).endQuery message.id := by
  simp only [routeNotification]
  split
  · exact .inl rfl
  next hretired =>
  split
  · exact .inl rfl
  split
  · next hkilled => exact .inr (.inr ⟨hretired, hkilled, rfl⟩)
  · next hrunning => exact .inr (.inl ⟨hretired, hrunning, rfl⟩)

theorem routeNotification_of_killed {s : Session} {message : LiveMessage}
    (hkilled : message.action = .killed) (hretired : message.id ∉ s.retired) :
    s.routeNotification message = (s.announce message).endQuery message.id := by
  simp only [routeNotification, if_neg hretired, if_pos hkilled]
  exact if_neg fun hfull ↦ hfull.1 hkilled

/-! ### Streams -/

/-- The second state differs from the first in its streams alone. -/
def StreamsOnly (s t : Session) : Prop :=
  t = { s with
    live := t.live
    subscriptions := t.subscriptions
    streams := t.streams
    retired := t.retired
    nextHandle := t.nextHandle }

namespace StreamsOnly

variable {s t u : Session}

theorem refl (s : Session) : StreamsOnly s s := rfl

theorem trans (hst : StreamsOnly s t) (htu : StreamsOnly t u) : StreamsOnly s u := by
  refine Eq.trans htu ?_
  rw [hst]

theorem requestState (h : StreamsOnly s t) : t.requestState = s.requestState := by
  have hview := congrArg Session.requestState h
  exact hview

theorem controlState (h : StreamsOnly s t) : t.controlState = s.controlState := by
  have hview := congrArg Session.controlState h
  exact hview

theorem outbox (h : StreamsOnly s t) : t.outbox = s.outbox := by
  have hview := congrArg Session.outbox h
  exact hview

theorem foldl {α : Type} {f : Session → α → Session} (hf : ∀ s a, StreamsOnly s (f s a))
    (items : List α) (s : Session) : StreamsOnly s (items.foldl f s) :=
  foldl_related refl trans hf items s

theorem deliverTo (message : LiveMessage) (s : Session) (handle : Nat) :
    StreamsOnly s (deliverTo message s handle) := rfl

theorem retire (s : Session) (id : Uuid) : StreamsOnly s (s.retire id) := by
  unfold Session.retire
  split <;> rfl

theorem register (s : Session) (id : Uuid) (query : Option LiveQuery) :
    StreamsOnly s (s.register id query).1 := rfl

theorem closeStream (s : Session) (reason : CloseReason) (handle : Nat) :
    StreamsOnly s (s.closeStream reason handle) := by
  simp only [Session.closeStream, Session.retire]
  split
  · exact refl s
  · split <;> rfl

theorem closeStreams (s : Session) (reason : CloseReason) (test : Subscription → Bool) :
    StreamsOnly s (s.closeStreams reason test) :=
  foldl (fun s handle ↦ closeStream s reason handle) _ s

theorem rebind (s : Session) (handle : Nat) (id : Uuid) : StreamsOnly s (s.rebind handle id) := by
  have hhistory (messages : List LiveMessage) (t : Session) (ht : StreamsOnly s t) :
      StreamsOnly s (messages.foldl (fun t message ↦ Session.deliverTo message t handle) t) :=
    ht.trans (foldl (fun t message ↦ deliverTo message t handle) messages t)
  simp only [Session.rebind]
  split
  · exact refl s
  · split
    · exact hhistory _ _ (by rfl)
    · exact (hhistory _ _ (by rfl)).trans (retire _ _)

theorem endQuery (s : Session) (id : Uuid) : StreamsOnly s (s.endQuery id) := by
  unfold Session.endQuery
  split
  · exact closeStream _ _ _
  · rfl

theorem announce (s : Session) (message : LiveMessage) : StreamsOnly s (s.announce message) := by
  have hlive (live : Emitter Uuid Nat LiveMessage) : StreamsOnly s { s with live } := rfl
  exact (hlive _).trans (foldl (deliverTo message) _ _)

theorem routeNotification (s : Session) (message : LiveMessage) :
    StreamsOnly s (s.routeNotification message) := by
  rcases routeNotification_cases s message with h | ⟨-, -, h⟩ | ⟨-, -, h⟩
  · rw [h]
    exact refl s
  · rw [h]
    exact announce s message
  · rw [h]
    exact (announce s message).trans (endQuery _ _)

end StreamsOnly

/-! ### Requests -/

/-- The second state differs from the first in its requests, in what it does about them, and in what
was said about them. -/
def RequestsOnly (s t : Session) : Prop :=
  t = { s with
    phase := t.phase
    standing := t.standing
    replies := t.replies
    inflight := t.inflight
    nextId := t.nextId
    isBroken := t.isBroken
    outbox := t.outbox }

namespace RequestsOnly

variable {s t u : Session}

theorem refl (s : Session) : RequestsOnly s s := rfl

theorem trans (hst : RequestsOnly s t) (htu : RequestsOnly t u) : RequestsOnly s u := by
  refine Eq.trans htu ?_
  rw [hst]

theorem streamState (h : RequestsOnly s t) : t.streamState = s.streamState := by
  have hview := congrArg Session.streamState h
  exact hview

theorem link (h : RequestsOnly s t) : t.link = s.link := by
  have hview := congrArg Session.link h
  exact hview

theorem closer (h : RequestsOnly s t) : t.closer = s.closer := by
  have hview := congrArg Session.closer h
  exact hview

theorem foldl {α : Type} {f : Session → α → Session} (hf : ∀ s a, RequestsOnly s (f s a))
    (items : List α) (s : Session) : RequestsOnly s (items.foldl f s) :=
  foldl_related refl trans hf items s

end RequestsOnly

/-- A dispatch fails before anything is written, and then only an id is used up, or the request is
launched. -/
theorem dispatch_cases (s : Session) (origin : Origin) (request : Request) :
    (∃ error, s.dispatch origin request = ({ s with nextId := s.nextId + 1 }, .error error)) ∨
    (∃ frame, s.dispatch origin request = (s.launch origin request frame, .ok s.nextId)) := by
  unfold dispatch
  split
  · exact .inl ⟨_, rfl⟩
  · exact .inr ⟨_, rfl⟩

namespace RequestsOnly

theorem send (s : Session) (outgoing : Outgoing) : RequestsOnly s (s.send outgoing) := by
  unfold Session.send
  split <;> rfl

theorem launch (s : Session) (origin : Origin) (request : Request) (frame : Octets) :
    RequestsOnly s (s.launch origin request frame) :=
  RequestsOnly.trans (by rfl) (send _ _)

theorem dispatch (s : Session) (origin : Origin) (request : Request) :
    RequestsOnly s (s.dispatch origin request).1 := by
  rcases dispatch_cases s origin request with ⟨error, h⟩ | ⟨frame, h⟩
  · rw [h]
    rfl
  · rw [h]
    exact launch _ _ _ _

theorem setAnswer (s : Session) (response : Response) :
    RequestsOnly s (s.setAnswer response) := by
  unfold Session.setAnswer
  split <;> rfl

theorem deliver (id : Nat) (reply : Reply) (s : Session) (origin : Origin) :
    RequestsOnly s (deliver id reply s origin) := by
  unfold Session.deliver
  split
  · exact RequestsOnly.trans (by rfl) (setAnswer _ _)
  · rfl

theorem emitReply (s : Session) (id : Nat) (reply : Reply) :
    RequestsOnly s (s.emitReply id reply) := by
  have hreplies : RequestsOnly s { s with replies := (s.replies.emit id).1 } := by rfl
  exact hreplies.trans (foldl (deliver id reply) _ _)

theorem routeReply (s : Session) (id : Nat) (response : Response) :
    RequestsOnly s (s.routeReply id response) := by
  unfold Session.routeReply
  split
  · exact refl s
  · exact RequestsOnly.trans (by rfl) (emitReply _ _ _)

theorem replyToAll (s : Session) (reply : Reply) : RequestsOnly s (s.replyToAll reply) := by
  have hinflight : RequestsOnly s { s with inflight := .empty } := by rfl
  exact hinflight.trans (foldl (fun t id ↦ emitReply t id reply) _ _)

end RequestsOnly

/-! ### Phases and broken links -/

theorem launch_phase (s : Session) (origin : Origin) (request : Request) (frame : Octets) :
    (s.launch origin request frame).phase = s.phase := by
  simp only [launch, send]
  split <;> rfl

theorem dispatch_phase (s : Session) (origin : Origin) (request : Request) :
    (s.dispatch origin request).1.phase = s.phase := by
  rcases dispatch_cases s origin request with ⟨error, h⟩ | ⟨frame, h⟩
  · rw [h]
  · rw [h]
    exact launch_phase _ _ _ _

/-- A link that takes frames is not found broken. -/
theorem send_isBroken {s : Session} (hlink : s.link = .whole) (outgoing : Outgoing) :
    (s.send outgoing).isBroken = s.isBroken := by
  unfold send
  rw [if_pos hlink]
  rfl

/-- A dispatch does not find a link broken that takes frames. -/
theorem dispatch_isBroken {s : Session} (hlink : s.link = .whole) (origin : Origin)
    (request : Request) : (s.dispatch origin request).1.isBroken = s.isBroken := by
  rcases dispatch_cases s origin request with ⟨error, h⟩ | ⟨frame, h⟩
  · rw [h]
  · rw [h]
    refine (send_isBroken ?_ _).trans ?_
    · exact hlink
    · rfl

/-- What every step of a fold leaves alone, the fold leaves alone. -/
theorem foldl_keeps {α β : Type} (view : Session → β) {f : Session → α → Session}
    (hview : ∀ s a, view (f s a) = view s) (items : List α) (s : Session) :
    view (items.foldl f s) = view s :=
  foldl_related (r := fun s t ↦ view t = view s) (fun _ ↦ rfl) (fun hst htu ↦ htu.trans hst) hview
    items s

theorem emitReply_inflight (s : Session) (id : Nat) (reply : Reply) :
    (s.emitReply id reply).inflight = s.inflight := by
  refine foldl_keeps inflight (fun s origin ↦ ?_) _ _
  simp only [deliver, setAnswer]
  split
  · split <;> rfl
  · rfl

@[simp] theorem replyToAll_inflight (s : Session) (reply : Reply) :
    (s.replyToAll reply).inflight = .empty :=
  foldl_keeps inflight (fun s id ↦ emitReply_inflight s id reply) _ _

/-- The requests that are awaited, with who awaits them. -/
def awaited (s : Session) : List (Nat × Origin) :=
  s.replies.listeners.entries.flatMap fun entry ↦
    entry.2.map fun listener ↦ (entry.1, listener.sink)

/-- A reply reaches only those who await it. -/
theorem mem_awaited_of_mem_emit {s : Session} {id : Nat} {origin : Origin}
    (h : origin ∈ (s.replies.emit id).2) : (id, origin) ∈ s.awaited := by
  simp only [Emitter.emit, Emitter.listenersOf] at h
  obtain ⟨listener, hlistener, rfl⟩ := List.mem_map.mp h
  have hlisted := (List.mem_filter.mp hlistener).1
  cases hget : s.replies.listeners.get? id with
  | none => simp [hget] at hlisted
  | some listeners =>
    rw [hget, Option.getD_some] at hlisted
    exact List.mem_flatMap.mpr ⟨_, Table.mem_entries_of_get? hget,
      List.mem_map.mpr ⟨listener, hlisted, rfl⟩⟩

/-- The answer that is noted in a phase is the one to a call of the session itself. -/
theorem deliverAnswer_phase (id : Nat) (response : Response) (origins : List Origin) :
    ∀ s : Session,
      (origins.foldl (deliver id (.response response)) s).phase = s.phase ∨
      .restoration ∈ origins ∧ ∃ restoration, s.phase = .restoring restoration ∧
        (origins.foldl (deliver id (.response response)) s).phase =
          .restoring { restoration with answer := some response } := by
  induction origins with
  | nil => exact fun s ↦ .inl rfl
  | cons origin rest ih =>
    intro s
    have hhead : (deliver id (.response response) s origin).phase = s.phase ∨
        origin = .restoration ∧ ∃ restoration, s.phase = .restoring restoration ∧
          (deliver id (.response response) s origin).phase =
            .restoring { restoration with answer := some response } := by
      cases origin with
      | caller ticket => exact .inl rfl
      | keepAlive => exact .inl rfl
      | restoration =>
        cases hphase : s.phase with
        | restoring restoration =>
          refine .inr ⟨rfl, restoration, rfl, ?_⟩
          simp only [deliver, setAnswer, push, hphase]
        | _ => simp [deliver, setAnswer, push, hphase]
    rw [List.foldl_cons]
    rcases ih (deliver id (.response response) s origin) with
      htail | ⟨hmem, restoration, htail, hend⟩
    · rcases hhead with hsame | ⟨horigin, restoration, hphase, hnoted⟩
      · exact .inl (htail.trans hsame)
      · exact .inr ⟨by simp [horigin], restoration, hphase, htail.trans hnoted⟩
    · rcases hhead with hsame | ⟨horigin, earlier, hphase, hnoted⟩
      · exact .inr ⟨List.mem_cons_of_mem _ hmem, restoration, hsame ▸ htail, hend⟩
      · rw [hnoted] at htail
        cases htail
        exact .inr ⟨by simp [horigin], earlier, hphase, hend⟩

theorem routeReply_phase (s : Session) (id : Nat) (response : Response) :
    (s.routeReply id response).phase = s.phase ∨
    (id, .restoration) ∈ s.awaited ∧ ∃ restoration, s.phase = .restoring restoration ∧
      (s.routeReply id response).phase =
        .restoring { restoration with answer := some response } := by
  unfold routeReply
  split
  · exact .inl rfl
  · rcases deliverAnswer_phase id response (s.replies.emit id).2 _ with h | ⟨hmem, h⟩
    · exact .inl h
    · exact .inr ⟨mem_awaited_of_mem_emit hmem, h⟩

/-! ### Moves of streams -/

/-- The action is none of the four that are about streams. -/
def Action.SparesStreams : Action → Prop
  | .notify _ | .register _ _ | .close _ _ | .rebind _ _ => False
  | _ => True

/-- What a move is to the streams of a session. -/
inductive StreamMove (s : Session) : Action → Session → Prop
  | same {action : Action} {t : Session} (haction : action.SparesStreams)
      (hstreams : t.streamState = s.streamState) : StreamMove s action t
  | notify (message : LiveMessage) : StreamMove s (.notify message) (s.routeNotification message)
  | register (id : Uuid) (query : Option LiveQuery) :
      StreamMove s (.register id query) (s.register id query).1
  | close (reason : CloseReason) (handle : Nat) :
      StreamMove s (.close reason handle) (s.closeStream reason handle)
  | rebind (handle : Nat) (id : Uuid) : StreamMove s (.rebind handle id) (s.rebind handle id)

theorem Move.onStreams {s t : Session} {action : Action} (h : Move s action t) :
    StreamMove s action t := by
  cases h with
  | aside haside => exact .same trivial haside.streamState
  | dispatch origin request =>
    exact .same trivial (RequestsOnly.dispatch s origin request).streamState
  | answer id response => exact .same trivial (RequestsOnly.routeReply s id response).streamState
  | giveBack reply => exact .same trivial (RequestsOnly.replyToAll s reply).streamState
  | notify message => exact .notify message
  | register id query => exact .register id query
  | close reason handle => exact .close reason handle
  | rebind handle id => exact .rebind handle id

end Session

end Wireline
