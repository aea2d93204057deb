import Wireline.Proofs.Session.Replies

/-!
# What a session says, and what it writes

A session takes nothing back, so that what it does is told by the effects that it adds to its outbox
(`Emits`). To give requests back, to let go of a link or to end the session writes no frame
(`Effect.IsQuiet`), and most of it is not about the calls of callers either (`Effect.IsIdle`).

The frames of all links together (`written`) are written under ids that only grow, each frame
carries the id that it is written under, and no id is used again (`Numbered`).
-/

set_option autoImplicit false
set_option relaxedAutoImplicit false

namespace Wireline

namespace Session

/-! ### Effects -/

/-- All that was put into the outbox between two states has a property. -/
def Emits (p : Effect → Prop) (s t : Session) : Prop :=
  ∃ effects, t.outbox = s.outbox ++ effects ∧ ∀ effect ∈ effects, p effect

namespace Emits

variable {p q : Effect → Prop} {s t u : Session}

theorem of_eq (h : t.outbox = s.outbox) : Emits p s t :=
  ⟨[], by rw [h, List.append_nil], by simp⟩

theorem refl (s : Session) : Emits p s s :=
  of_eq rfl

theorem trans (hst : Emits p s t) (htu : Emits p t u) : Emits p s u := by
  obtain ⟨first, hfirst, hp⟩ := hst
  obtain ⟨second, hsecond, hp'⟩ := htu
  refine ⟨first ++ second, by rw [hsecond, hfirst, List.append_assoc], fun effect heffect ↦ ?_⟩
  rcases List.mem_append.mp heffect with h | h
  · exact hp effect h
  · exact hp' effect h

theorem mono (hpq : ∀ effect, p effect → q effect) (h : Emits p s t) : Emits q s t := by
  obtain ⟨effects, houtbox, hp⟩ := h
  exact ⟨effects, houtbox, fun effect heffect ↦ hpq effect (hp effect heffect)⟩

theorem push (s : Session) {effect : Effect} (h : p effect) : Emits p s (s.push effect) :=
  ⟨[effect], rfl, by simpa using h⟩

theorem foldl {α : Type} {f : Session → α → Session} (hf : ∀ s a, Emits p s (f s a))
    (items : List α) (s : Session) : Emits p s (items.foldl f s) :=
  foldl_related refl trans hf items s

theorem streamsOnly (h : StreamsOnly s t) : Emits p s t :=
  of_eq h.outbox

/-- What no effect of a kind shows is seen in the outbox as before. -/
theorem filterMap_outbox {α : Type} {view : Effect → Option α} (h : Emits p s t)
    (hview : ∀ effect, p effect → view effect = none) :
    t.outbox.filterMap view = s.outbox.filterMap view := by
  obtain ⟨effects, houtbox, hp⟩ := h
  have hnone : effects.filterMap view = [] :=
    List.filterMap_eq_nil_iff.mpr fun effect heffect ↦ hview effect (hp effect heffect)
  rw [houtbox, List.filterMap_append, hnone, List.append_nil]

end Emits

/-- The effect writes no frame, puts no request under way and does not say that the session is
connected. -/
def Effect.IsQuiet : Effect → Prop
  | .send _ | .dispatched .. | .status .connected => False
  | _ => True

/-- The effect is quiet, and refuses no call of a caller. -/
def Effect.IsIdle : Effect → Prop
  | .send _ | .dispatched .. | .status .connected | .tell _ (.refused _) => False
  | _ => True

theorem Effect.IsIdle.isQuiet {effect : Effect} (h : effect.IsIdle) : effect.IsQuiet := by
  unfold IsIdle at h
  split at h
  · exact h.elim
  · exact h.elim
  · exact h.elim
  · exact h.elim
  · next hsend hdispatched hstatus _ =>
    unfold IsQuiet
    split
    · exact hsend _ rfl
    · exact hdispatched _ _ rfl
    · exact hstatus rfl
    · trivial

namespace Emits

variable (s : Session)

theorem setStatus {status : Status} (h : status ≠ .connected) :
    Emits Effect.IsIdle s (s.setStatus status) := by
  unfold Session.setStatus
  split
  · exact refl s
  · refine ⟨[.status status], rfl, fun effect heffect ↦ ?_⟩
    rw [List.mem_singleton.mp heffect]
    cases status with
    | connected => exact absurd rfl h
    | _ => trivial

theorem hangUp : Emits Effect.IsIdle s s.hangUp := by
  unfold Session.hangUp
  split
  · exact refl s
  · exact ⟨[.hangUp], rfl, by simp [Effect.IsIdle]⟩

theorem emitReply (id : Nat) (reply : Reply) : Emits Effect.IsIdle s (s.emitReply id reply) := by
  refine ⟨_, emitReply_outbox id reply s, fun effect heffect ↦ ?_⟩
  obtain ⟨origin, -, rfl⟩ := List.mem_map.mp heffect
  trivial

theorem routeReply (id : Nat) (response : Response) :
    Emits Effect.IsIdle s (s.routeReply id response) := by
  unfold Session.routeReply
  split
  · exact refl s
  · exact (of_eq rfl).trans (emitReply _ id _)

theorem replyToAll (reply : Reply) : Emits Effect.IsIdle s (s.replyToAll reply) :=
  (of_eq rfl).trans (foldl (fun t id ↦ emitReply t id reply) s.inflight.keys
    { s with inflight := .empty })

theorem refuseDeferred (error : ClientError) :
    Emits Effect.IsQuiet s (s.refuseDeferred error) :=
  (of_eq rfl).trans (foldl (fun t call ↦ push t (by trivial)) s.deferred { s with deferred := [] })

theorem stop : Emits Effect.IsIdle s s.stop := by
  have hstopped (t : Session) :
      Emits Effect.IsIdle t ({ t with phase := .stopped }.push .stopped) :=
    ⟨[.stopped], rfl, by simp [Effect.IsIdle]⟩
  unfold Session.stop
  split
  · exact (push s (by trivial)).trans (hstopped _)
  · exact hstopped s

/-- Once the link is let go, nothing that ends the session is heard on it. -/
theorem shutdown_of_hangUp (reason : DisconnectReason) :
    Emits Effect.IsQuiet s.hangUp (s.shutdown reason) := by
  have hidle {t u : Session} (h : Emits Effect.IsIdle t u) : Emits Effect.IsQuiet t u :=
    h.mono fun _ ↦ Effect.IsIdle.isQuiet
  have hstatus : statusAfter reason ≠ .connected := by cases reason <;> simp [statusAfter]
  have hended : Emits Effect.IsQuiet s.hangUp (s.ended reason) :=
    ((hidle (replyToAll _ _)).trans (refuseDeferred _ _)).trans (streamsOnly (.closeStreams _ _ _))
  rw [shutdown_eq]
  split
  · have hcleared : Emits Effect.IsIdle (s.ended reason)
        { s.ended reason with standing := {} } := of_eq rfl
    exact hended.trans (hidle ((hcleared.trans (setStatus _ hstatus)).trans (stop _)))
  · exact hended.trans (hidle ((setStatus _ hstatus).trans (of_eq rfl)))

theorem shutdown (reason : DisconnectReason) : Emits Effect.IsQuiet s (s.shutdown reason) :=
  ((hangUp s).mono fun _ ↦ Effect.IsIdle.isQuiet).trans (shutdown_of_hangUp s reason)

theorem retryLater : Emits Effect.IsQuiet s s.retryLater := by
  unfold Session.retryLater
  split
  · exact of_eq rfl
  · next backoff _ _ =>
    have hbackoff : Emits Effect.IsQuiet s { s with backoff } := of_eq rfl
    exact hbackoff.trans (shutdown _ _)

theorem loseAgain_of_hangUp : Emits Effect.IsQuiet s.hangUp s.loseAgain :=
  ((replyToAll s.hangUp .retry).mono fun _ ↦ Effect.IsIdle.isQuiet).trans (retryLater _)

theorem lose : Emits Effect.IsQuiet s s.lose := by
  unfold Session.lose
  split
  · have hwarned : Emits Effect.IsIdle s (s.hangUp.setStatus .reconnecting) :=
      (hangUp s).trans (setStatus s.hangUp (by simp))
    exact (((hwarned.trans (replyToAll _ _)).mono fun _ ↦ Effect.IsIdle.isQuiet).trans
      (streamsOnly (.closeStreams _ _ _))).trans (retryLater _)
  · exact shutdown s _

end Emits

/-! ### Dispatches -/

theorem replies_eq_of_requestState {s t : Session} (h : t.requestState = s.requestState) :
    t.replies = s.replies :=
  congrArg Prod.fst h

theorem nextId_eq_of_requestState {s t : Session} (h : t.requestState = s.requestState) :
    t.nextId = s.nextId :=
  congrArg (·.2.2) h

section NextId

variable (s : Session)

theorem routeReply_nextId (id : Nat) (response : Response) :
    (s.routeReply id response).nextId = s.nextId := by
  unfold routeReply
  split
  · rfl
  · exact congrArg (·.2.2) (emitReply_requestState id _ _)

theorem replyToAll_nextId (reply : Reply) : (s.replyToAll reply).nextId = s.nextId :=
  foldl_keeps nextId (fun t id ↦ congrArg (·.2.2) (emitReply_requestState id reply t)) _ _

theorem shutdown_nextId (reason : DisconnectReason) :
    (s.shutdown reason).nextId = s.nextId := by
  have hended : (s.ended reason).nextId = s.hangUp.nextId :=
    ((nextId_eq_of_requestState (StreamsOnly.closeStreams _ _ _).requestState).trans
      (nextId_eq_of_requestState (Aside.refuseDeferred _ _).requestState)).trans
      (replyToAll_nextId _ _)
  have hended' := nextId_eq_of_requestState (ended_aside_shutdown s reason).requestState
  exact (hended'.trans hended).trans (nextId_eq_of_requestState (Aside.hangUp s).requestState)

theorem retryLater_nextId : s.retryLater.nextId = s.nextId := by
  unfold retryLater
  split
  · rfl
  · exact shutdown_nextId _ _

theorem loseAgain_nextId : s.loseAgain.nextId = s.nextId :=
  ((retryLater_nextId _).trans (replyToAll_nextId _ _)).trans
    (nextId_eq_of_requestState (Aside.hangUp s).requestState)

theorem lose_nextId : s.lose.nextId = s.nextId := by
  unfold lose
  split
  · have hwarned : (s.hangUp.setStatus .reconnecting).nextId = s.nextId :=
      nextId_eq_of_requestState ((Aside.hangUp s).trans (.setStatus _ _)).requestState
    exact ((retryLater_nextId _).trans (nextId_eq_of_requestState
      (StreamsOnly.closeStreams _ _ _).requestState)).trans ((replyToAll_nextId _ _).trans hwarned)
  · exact shutdown_nextId s _

theorem attend_nextId : s.attend.nextId = s.nextId := by
  unfold attend
  split
  · exact shutdown_nextId s _
  · split
    · exact lose_nextId s
    · rfl

theorem await_nextId (restoration : Restoration) :
    (s.await restoration).nextId = s.nextId := by
  unfold await
  split
  · exact loseAgain_nextId s
  · rfl

end NextId

/-- An id was used up, and nothing else. -/
def spent (s : Session) : Session :=
  { s with nextId := s.nextId + 1 }

section Dispatch

variable (s : Session) (origin : Origin) (request : Request)

theorem dispatch_of_frameOf_error {error : ClientError}
    (h : s.frameOf request s.nextId = .error error) :
    s.dispatch origin request = (s.spent, .error error) := by
  simp only [dispatch, h, spent]

theorem dispatch_of_frameOf_ok {frame : Octets} (h : s.frameOf request s.nextId = .ok frame) :
    s.dispatch origin request = (s.launch origin request frame, .ok s.nextId) := by
  simp only [dispatch, h]

theorem launch_nextId (frame : Octets) :
    (s.launch origin request frame).nextId = s.nextId + 1 :=
  congrArg (·.2.2) (launch_requestState s origin request frame)

/-- A request takes the next id, whether it can be sent or not. -/
theorem dispatch_nextId : (s.dispatch origin request).1.nextId = s.nextId + 1 := by
  cases hframe : s.frameOf request s.nextId with
  | error error => rw [dispatch_of_frameOf_error s origin request hframe, spent]
  | ok frame =>
    rw [dispatch_of_frameOf_ok s origin request hframe]
    exact launch_nextId s origin request frame

theorem send_outbox (outgoing : Outgoing) :
    (s.send outgoing).outbox =
      s.outbox ++ if s.link = .whole then [.send outgoing] else [] := by
  unfold send
  split
  · rfl
  · exact (List.append_nil _).symm

/-- A frame is written for a request that is launched if the link takes it. -/
theorem launch_outbox (frame : Octets) :
    (s.launch origin request frame).outbox = s.outbox ++ .dispatched s.nextId origin ::
      if s.link = .whole then [.send ⟨s.nextId, origin, request, frame⟩] else [] := by
  unfold launch
  rw [send_outbox, push, List.append_assoc]
  rfl

end Dispatch

/-! ### Steps -/

theorem dispatch_emits (s : Session) (origin : Origin) (request : Request) :
    Emits (fun _ ↦ True) s (s.dispatch origin request).1 := by
  rcases dispatch_cases s origin request with ⟨error, h⟩ | ⟨frame, h⟩
  · rw [h]
    exact .of_eq rfl
  · rw [h]
    exact ⟨_, launch_outbox s origin request frame, fun _ _ ↦ trivial⟩

/-- What the session wants is added to its outbox, and nothing is taken out. -/
theorem step_emits {s : Session} (hs : s.Quiescent) (event : Event) :
    Emits (fun _ ↦ True) s (s.step event) := by
  refine (step_path hs event).invariant (fun t ↦ Emits (fun _ ↦ True) s t) ?_ (.refl s)
  intro t action u _ hmove ht
  have hidle {v : Session} (h : Emits Effect.IsIdle t v) : Emits (fun _ ↦ True) t v :=
    h.mono fun _ _ ↦ trivial
  refine ht.trans ?_
  cases hmove with
  | aside haside =>
    obtain ⟨effects, houtbox, -⟩ := haside.outbox
    exact ⟨effects, houtbox, fun _ _ ↦ trivial⟩
  | dispatch origin request => exact dispatch_emits t origin request
  | answer id response => exact hidle (.routeReply t id response)
  | giveBack reply => exact hidle (.replyToAll t reply)
  | notify message => exact .streamsOnly (.routeNotification t message)
  | register id query => exact .streamsOnly (.register t id query)
  | close reason handle => exact .streamsOnly (.closeStream t reason handle)
  | rebind handle id => exact .streamsOnly (.rebind t handle id)

theorem run_emits {s : Session} (hs : s.Quiescent) (events : List Event) :
    Emits (fun _ ↦ True) s (s.run events) := by
  induction events generalizing s with
  | nil => exact .refl s
  | cons event rest ih => exact (step_emits hs event).trans (ih (step_quiescent hs event))

/-- What a session says when an event comes. -/
def emitted (s : Session) (event : Event) : List Effect :=
  (s.step event).outbox.drop s.outbox.length

theorem outbox_eq_emitted {s : Session} (hs : s.Quiescent) (event : Event) :
    (s.step event).outbox = s.outbox ++ s.emitted event := by
  obtain ⟨effects, houtbox, -⟩ := step_emits hs event
  rw [emitted, houtbox, List.drop_left]

/-- What is said last is a part of what is said. -/
theorem Emits.last {p : Effect → Prop} {s₀ s t : Session} {effects : List Effect}
    (h : Emits p s₀ t) (hs : Emits (fun _ ↦ True) s₀ s) (ht : t.outbox = s.outbox ++ effects) :
    ∀ effect ∈ effects, p effect := by
  obtain ⟨all, hall, hp⟩ := h
  obtain ⟨first, hfirst, -⟩ := hs
  rw [ht, hfirst, List.append_assoc] at hall
  rw [← List.append_cancel_left hall] at hp
  exact fun effect heffect ↦ hp effect (List.mem_append_right _ heffect)

/-! ### Frames -/

theorem encodeValue_of_frameOf {s : Session} {request : Request} {id : Nat} {frame : Octets}
    (h : s.frameOf request id = .ok frame) : encodeValue (request.toFrame id) = .ok frame := by
  unfold frameOf at h
  cases hencoded : encodeValue (request.toFrame id) with
  | error error =>
    rw [hencoded] at h
    cases h
  | ok octets =>
    have hmapped : (Except.ok octets).mapError ClientError.wire = .ok octets := rfl
    simp only [hencoded, hmapped, bind, Except.bind, pure, Except.pure] at h
    split at h
    · split at h
      · cases h
      · exact congrArg Except.ok (Except.ok.inj h)
    · exact congrArg Except.ok (Except.ok.inj h)

def Effect.outgoing? : Effect → Option Outgoing
  | .send outgoing => some outgoing
  | _ => none

/-- The frames that were handed to a link, over all links, the oldest first. -/
def written (s : Session) : List Outgoing :=
  s.outbox.filterMap Effect.outgoing?

theorem Effect.IsQuiet.outgoing? {effect : Effect} (h : effect.IsQuiet) :
    effect.outgoing? = none := by
  cases effect with
  | send outgoing => exact h.elim
  | _ => rfl

theorem Emits.written {s t : Session} (h : Emits Effect.IsQuiet s t) : t.written = s.written :=
  h.filterMap_outbox fun _ ↦ Effect.IsQuiet.outgoing?

theorem Emits.sent {s t : Session} (h : Emits Effect.IsQuiet s t) : t.sent = s.sent := by
  refine h.filterMap_outbox fun effect heffect ↦ ?_
  cases effect with
  | dispatched id origin => exact heffect.elim
  | _ => rfl

theorem Aside.written {s t : Session} (h : Aside s t) : t.written = s.written := by
  refine Emits.filterMap_outbox h.outbox fun effect heffect ↦ ?_
  cases effect with
  | send outgoing => cases heffect
  | _ => rfl

theorem written_launch (s : Session) (origin : Origin) (request : Request) (frame : Octets) :
    (s.launch origin request frame).written =
      s.written ++ if s.link = .whole then [⟨s.nextId, origin, request, frame⟩] else [] := by
  rw [written, launch_outbox, List.filterMap_append, written]
  split <;> rfl

/-- The frames are written under growing ids, all of which are used up, and each of them carries its
id. -/
structure Numbered (s : Session) : Prop where
  ascending : (s.written.map Outgoing.id).Pairwise (· < ·)
  below : ∀ outgoing ∈ s.written, outgoing.id < s.nextId
  carried : ∀ outgoing ∈ s.written,
    encodeValue (outgoing.request.toFrame outgoing.id) = .ok outgoing.frame

namespace Numbered

variable {s t : Session}

theorem congr (h : Numbered s) (hwritten : t.written = s.written) (hnextId : s.nextId ≤ t.nextId) :
    Numbered t where
  ascending := by
    rw [hwritten]
    exact h.ascending
  below := by
    rw [hwritten]
    exact fun outgoing houtgoing ↦ Nat.lt_of_lt_of_le (h.below outgoing houtgoing) hnextId
  carried := by
    rw [hwritten]
    exact h.carried

theorem launch (h : Numbered s) (origin : Origin) {request : Request} {frame : Octets}
    (hframe : s.frameOf request s.nextId = .ok frame) :
    Numbered (s.launch origin request frame) := by
  have hnextId := launch_nextId s origin request frame
  have hwritten := written_launch s origin request frame
  split at hwritten
  · constructor
    · rw [hwritten, List.map_append, List.pairwise_append]
      refine ⟨h.ascending, List.pairwise_singleton _ _, fun id hid last hlast ↦ ?_⟩
      obtain ⟨outgoing, houtgoing, rfl⟩ := List.mem_map.mp hid
      rw [List.map_singleton, List.mem_singleton] at hlast
      exact hlast ▸ h.below outgoing houtgoing
    · rw [hwritten, hnextId]
      intro outgoing houtgoing
      rcases List.mem_append.mp houtgoing with hold | hnew
      · exact Nat.lt_succ_of_lt (h.below outgoing hold)
      · rw [List.mem_singleton.mp hnew]
        exact Nat.lt_succ_self _
    · rw [hwritten]
      intro outgoing houtgoing
      rcases List.mem_append.mp houtgoing with hold | hnew
      · exact h.carried outgoing hold
      · rw [List.mem_singleton.mp hnew]
        exact encodeValue_of_frameOf hframe
  · exact h.congr (hwritten.trans (List.append_nil _)) (by omega)

theorem dispatch (h : Numbered s) (origin : Origin) (request : Request) :
    Numbered (s.dispatch origin request).1 := by
  cases hframe : s.frameOf request s.nextId with
  | error error =>
    rw [dispatch_of_frameOf_error s origin request hframe]
    exact h.congr rfl (Nat.le_succ _)
  | ok frame =>
    rw [dispatch_of_frameOf_ok s origin request hframe]
    exact h.launch origin hframe

/-- Only a dispatch writes, and it uses an id up that was not used before. -/
theorem move {action : Action} (h : Numbered s) (hmove : Move s action t) : Numbered t := by
  have hkept {u : Session} (hidle : Emits Effect.IsIdle s u) (hnextId : u.nextId = s.nextId) :
      Numbered u :=
    h.congr (hidle.mono fun _ ↦ Effect.IsIdle.isQuiet).written (Nat.le_of_eq hnextId.symm)
  have hstreams {u : Session} (hstreams : StreamsOnly s u) : Numbered u :=
    hkept (.streamsOnly hstreams) (nextId_eq_of_requestState hstreams.requestState)
  cases hmove with
  | aside haside =>
    have hnextId := nextId_eq_of_requestState haside.requestState
    exact h.congr haside.written (Nat.le_of_eq hnextId.symm)
  | dispatch origin request => exact h.dispatch origin request
  | answer id response => exact hkept (.routeReply s id response) (routeReply_nextId s id response)
  | giveBack reply => exact hkept (.replyToAll s reply) (replyToAll_nextId s reply)
  | notify message => exact hstreams (.routeNotification s message)
  | register id query => exact hstreams (.register s id query)
  | close reason handle => exact hstreams (.closeStream s reason handle)
  | rebind handle id => exact hstreams (.rebind s handle id)

end Numbered

theorem numbered_ofConfig (url : String) (config : ClientConfig) (payloadLimit : Option Nat) :
    Numbered (ofConfig url config payloadLimit) where
  ascending := .nil
  below := by simp [written, ofConfig]
  carried := by simp [written, ofConfig]

theorem numbered_run {s : Session} (hs : s.Quiescent) (h : Numbered s) (events : List Event) :
    Numbered (s.run events) :=
  (run_invariant Numbered (fun _ _ _ _ _ h _ hmove ↦ h.move hmove) events s hs h).2

end Session

end Wireline
