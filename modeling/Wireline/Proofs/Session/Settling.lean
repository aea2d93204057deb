import Wireline.Proofs.Session.Control

/-!
# What follows an event

An event has a beginning of its own, and then the session looks after itself: it sends, gives
requests back, closes streams, and ends in a state in which it only waits (`Quiescent`). `Settles`
says both for one of the functions that look after a session: the way to its result consists of
moves that may follow an event (`FollowUp`), and the result is quiescent.
-/

set_option autoImplicit false
set_option relaxedAutoImplicit false

namespace Wireline

namespace Session

/-! ### Between two events -/

/-- Whether the session has given the connection up. -/
def IsOver (s : Session) : Prop :=
  s.phase = .settled ∨ s.phase = .stopped

/-- There is no link, so nothing is awaited over one, and nobody asked to close the session. -/
structure Unlinked (s : Session) : Prop where
  link : s.link = .none
  inflight : s.inflight = .empty
  closer : s.closer = none

/-- There is a link, it is not known to be broken, and nobody asked to close the session. -/
structure Linked (s : Session) : Prop where
  link : s.link ≠ .none
  isBroken : s.isBroken = false
  closer : s.closer = none

/-- The session has nothing left to do by itself. -/
def Quiescent (s : Session) : Prop :=
  match s.phase with
  | .unopened | .opening | .backingOff _ | .dialing | .settled => s.Unlinked
  | .serving _ => s.Linked
  | .restoring restoration => s.Linked ∧ restoration.answer = none
  | .stopped | .halted => s.link = .none ∧ s.inflight = .empty

/-- What may follow an event that ends in the state `final`: nothing new comes in, requests are only
given back once there is no link, and they only fail when the session is over. Whether a link may be
lost is `lossy`. -/
def FollowUp (lossy : Prop) (final s : Session) : Action → Prop
  | .aside | .dispatch .. | .close .. => True
  | .giveBack .retry => lossy ∧ s.link = .none ∧ final.link = .none
  | .giveBack (.failed error) =>
    (∃ reason, error = .disconnected reason) ∧ s.link = .none ∧ final.IsOver
  | _ => False

/-- A session gets from one state to another without a new event, and only waits there. -/
structure Settles (lossy : Prop) (s final : Session) : Prop where
  path : Path (FollowUp lossy final) s final
  quiescent : final.Quiescent

namespace Settles

variable {lossy : Prop} {s t final : Session}

theorem stay (h : s.Quiescent) : Settles lossy s s :=
  ⟨.refl, h⟩

theorem after (h : Settles lossy t final) (hpath : Path (FollowUp lossy final) s t) :
    Settles lossy s final :=
  ⟨hpath.trans h.path, h.quiescent⟩

theorem afterAside (h : Settles lossy t final) (haside : Aside s t) : Settles lossy s final :=
  h.after (.single (by trivial) (.aside haside))

theorem afterDispatch (origin : Origin) (request : Request)
    (h : Settles lossy (s.dispatch origin request).1 final) : Settles lossy s final :=
  h.after (.single (by trivial) (.dispatch origin request))

theorem afterClose {reason : CloseReason} {handle : Nat}
    (h : Settles lossy (s.closeStream reason handle) final) : Settles lossy s final :=
  h.after (.single (by trivial) (.close reason handle))

theorem afterGiveBack {reply : Reply} (h : Settles lossy (s.replyToAll reply) final)
    (hpermits : FollowUp lossy final s (.giveBack reply)) : Settles lossy s final :=
  h.after (.single hpermits (.giveBack reply))

theorem afterCloseAll (reason : CloseReason) (test : Subscription → Bool)
    (h : Settles lossy (s.closeStreams reason test) final) : Settles lossy s final := by
  unfold closeStreams at h
  generalize (s.subscriptions.entries.filter fun entry ↦ test entry.2).map Prod.fst = handles at h
  induction handles generalizing s with
  | nil => exact h
  | cons handle rest ih => exact afterClose (ih h)

end Settles

/-! ### The end -/

theorem stop_quiescent {s : Session} (hlink : s.link = .none) (hinflight : s.inflight = .empty) :
    s.stop.Quiescent := by
  unfold stop
  split
  · exact ⟨hlink, hinflight⟩
  · exact ⟨hlink, hinflight⟩

theorem stop_phase (s : Session) : s.stop.phase = .stopped := by
  unfold stop
  split <;> rfl

theorem stop_aside (s : Session) : Aside s s.stop := by
  have hstopped (t : Session) : Aside t ({ t with phase := .stopped }.push .stopped) :=
    (Aside.silent rfl rfl rfl : Aside t { t with phase := .stopped }).trans (.push _ rfl)
  unfold stop
  split
  · exact (Aside.tell s _ _).trans (hstopped _)
  · exact hstopped s

/-- Refuses the requests that wait for a link. -/
def refuseDeferred (s : Session) (error : ClientError) : Session :=
  s.deferred.foldl (fun s call ↦ s.tell call.1 (.refused error)) { s with deferred := [] }

theorem refuseDeferred_controlState (s : Session) (error : ClientError) :
    (s.refuseDeferred error).controlState = s.controlState :=
  refuseAll_controlState error s.deferred _

theorem Aside.refuseDeferred (s : Session) (error : ClientError) :
    Aside s (s.refuseDeferred error) := by
  have hforgotten : Aside s { s with deferred := [] } := .silent rfl rfl rfl
  exact hforgotten.trans (.refuseAll error s.deferred _)

/-- The state in which a session is given up, before it says so. -/
def ended (s : Session) (reason : DisconnectReason) : Session :=
  ((s.hangUp.replyToAll (.failed (.disconnected reason))).refuseDeferred
    (.disconnected reason)).closeStreams .disconnected fun _ ↦ true

theorem shutdown_eq (s : Session) (reason : DisconnectReason) :
    s.shutdown reason =
      if reason = .closed then
        ({ s.ended reason with standing := {} }.setStatus (statusAfter reason)).stop
      else { (s.ended reason).setStatus (statusAfter reason) with phase := .settled } := rfl

section Ended

variable (s : Session) (reason : DisconnectReason)

theorem ended_controlState :
    (s.ended reason).controlState =
      (s.hangUp.replyToAll (.failed (.disconnected reason))).controlState :=
  (StreamsOnly.closeStreams _ _ _).controlState.trans (refuseDeferred_controlState _ _)

theorem ended_link : (s.ended reason).link = .none := by
  rw [link_eq_of_controlState (ended_controlState s reason), (RequestsOnly.replyToAll _ _).link,
    hangUp_link]

theorem ended_closer : (s.ended reason).closer = s.closer := by
  rw [closer_eq_of_controlState (ended_controlState s reason), (RequestsOnly.replyToAll _ _).closer,
    hangUp_closer]

theorem ended_inflight : (s.ended reason).inflight = .empty := by
  have hrequests : (s.ended reason).requestState =
      (s.hangUp.replyToAll (.failed (.disconnected reason))).requestState :=
    (StreamsOnly.closeStreams _ _ _).requestState.trans (Aside.refuseDeferred _ _).requestState
  rw [inflight_eq_of_requestState hrequests, replyToAll_inflight]

theorem shutdown_isOver : (s.shutdown reason).IsOver := by
  rw [shutdown_eq]
  split
  · exact .inr (stop_phase _)
  · exact .inl rfl

theorem ended_aside_shutdown : Aside (s.ended reason) (s.shutdown reason) := by
  have hcleared (t : Session) : Aside t { t with standing := {} } := .silent rfl rfl rfl
  have hsettled (t : Session) : Aside t { t with phase := .settled } := .silent rfl rfl rfl
  rw [shutdown_eq]
  split
  · exact ((hcleared _).trans (.setStatus _ _)).trans (stop_aside _)
  · exact (Aside.setStatus _ _).trans (hsettled _)

end Ended

theorem setStatus_inflight (s : Session) (status : Status) :
    (s.setStatus status).inflight = s.inflight :=
  inflight_eq_of_requestState (Aside.setStatus s status).requestState

/-- Unless it is closed, a session is not given up while somebody asks to close it. -/
theorem shutdown_quiescent {s : Session} {reason : DisconnectReason}
    (h : s.closer = none ∨ reason = .closed) : (s.shutdown reason).Quiescent := by
  rw [shutdown_eq]
  split
  · refine stop_quiescent ?_ ?_
    · rw [link_eq_of_controlState (setStatus_controlState _ _)]
      exact ended_link s reason
    · rw [setStatus_inflight]
      exact ended_inflight s reason
  · next hreason =>
    have hcontrol := setStatus_controlState (s.ended reason) (statusAfter reason)
    have hinflight := setStatus_inflight (s.ended reason) (statusAfter reason)
    generalize (s.ended reason).setStatus (statusAfter reason) = t at hcontrol hinflight
    have hlink : t.link = .none := (link_eq_of_controlState hcontrol).trans (ended_link s reason)
    have hcloser : t.closer = none :=
      (closer_eq_of_controlState hcontrol).trans
        ((ended_closer s reason).trans (h.resolve_right hreason))
    exact ⟨hlink, hinflight.trans (ended_inflight s reason), hcloser⟩

theorem shutdown_settles {lossy : Prop} {s : Session} {reason : DisconnectReason}
    (h : s.closer = none ∨ reason = .closed) : Settles lossy s (s.shutdown reason) := by
  have hended : Settles lossy (s.ended reason) (s.shutdown reason) :=
    (Settles.stay (shutdown_quiescent h)).afterAside (ended_aside_shutdown s reason)
  have hpermits : FollowUp lossy (s.shutdown reason) s.hangUp
      (.giveBack (.failed (.disconnected reason))) :=
    ⟨⟨reason, rfl⟩, hangUp_link s, shutdown_isOver s reason⟩
  have hrefused := hended.afterCloseAll .disconnected fun _ ↦ true
  exact ((hrefused.afterAside (.refuseDeferred _ _)).afterGiveBack hpermits).afterAside (.hangUp s)

/-! ### Reconnecting -/

theorem shutdown_link (s : Session) (reason : DisconnectReason) :
    (s.shutdown reason).link = .none := by
  have hstop (t : Session) : t.stop.link = t.link := by
    unfold stop
    split <;> rfl
  rw [shutdown_eq]
  split
  · rw [hstop, link_eq_of_controlState (setStatus_controlState _ _)]
    exact ended_link s reason
  · exact (link_eq_of_controlState (setStatus_controlState _ _)).trans (ended_link s reason)

theorem retryLater_link {s : Session} (h : s.link = .none) : s.retryLater.link = .none := by
  unfold retryLater
  split
  · exact h
  · exact shutdown_link _ _

theorem retryLater_settles {lossy : Prop} {s : Session} (h : s.Unlinked) :
    Settles lossy s s.retryLater := by
  unfold retryLater
  split
  · next delay _ =>
    refine Settles.afterAside (Settles.stay ?_) (.silent rfl rfl rfl)
    cases delay with
    | some _ => exact ⟨h.link, h.inflight, h.closer⟩
    | none => exact ⟨h.link, h.inflight⟩
  · exact Settles.afterAside (shutdown_settles (.inl h.closer)) (.silent rfl rfl rfl)

/-- Giving requests back over a link that was let go leaves nothing pending. -/
theorem replyToAll_unlinked {s : Session} {reply : Reply} (hlink : s.link = .none)
    (hcloser : s.closer = none) : (s.replyToAll reply).Unlinked where
  link := (RequestsOnly.replyToAll s reply).link.trans hlink
  inflight := replyToAll_inflight s reply
  closer := (RequestsOnly.replyToAll s reply).closer.trans hcloser

theorem loseAgain_settles {lossy : Prop} {s : Session} (hlossy : lossy)
    (hcloser : s.closer = none) : Settles lossy s s.loseAgain := by
  have hlost : (s.hangUp.replyToAll .retry).Unlinked :=
    replyToAll_unlinked (hangUp_link s) ((hangUp_closer s).trans hcloser)
  have hpermits : FollowUp lossy s.loseAgain s.hangUp (.giveBack .retry) :=
    ⟨hlossy, hangUp_link s, retryLater_link hlost.link⟩
  exact ((retryLater_settles hlost).afterGiveBack hpermits).afterAside (.hangUp s)

theorem closeStreams_unlinked {s : Session} (h : s.Unlinked) (reason : CloseReason)
    (test : Subscription → Bool) : (s.closeStreams reason test).Unlinked := by
  have hclosed := StreamsOnly.closeStreams s reason test
  exact {
    link := (link_eq_of_controlState hclosed.controlState).trans h.link
    inflight := (inflight_eq_of_requestState hclosed.requestState).trans h.inflight
    closer := (closer_eq_of_controlState hclosed.controlState).trans h.closer }

theorem lose_settles {lossy : Prop} {s : Session} (hlossy : lossy) (hcloser : s.closer = none) :
    Settles lossy s s.lose := by
  unfold lose
  split
  · generalize hwarned : s.hangUp.setStatus .reconnecting = warned
    have hcontrol : warned.controlState = s.hangUp.controlState := by
      rw [← hwarned, setStatus_controlState]
    have hlink : warned.link = .none := (link_eq_of_controlState hcontrol).trans (hangUp_link s)
    have hlost : (warned.replyToAll .retry).Unlinked :=
      replyToAll_unlinked hlink
        ((closer_eq_of_controlState hcontrol).trans ((hangUp_closer s).trans hcloser))
    have hclosed := closeStreams_unlinked hlost .disconnected fun stream ↦ stream.query.isNone
    refine Settles.afterAside ?_ (hwarned ▸ (Aside.hangUp s).trans (.setStatus _ _))
    exact (Settles.afterCloseAll _ _ (retryLater_settles hclosed)).afterGiveBack
      ⟨hlossy, hlink, retryLater_link hclosed.link⟩
  · exact shutdown_settles (.inl hcloser)

/-! ### Serving -/

/-- There is a link, and if it is not whole then it may be lost. -/
structure Sound (lossy : Prop) (s : Session) : Prop where
  link : s.link ≠ .none
  unhurt : lossy ∨ s.link = .whole ∧ s.isBroken = false

namespace Sound

variable {lossy : Prop} {s t : Session}

theorem of_controlState (h : Sound lossy s) (hcontrol : t.controlState = s.controlState) :
    Sound lossy t where
  link := by
    rw [link_eq_of_controlState hcontrol]
    exact h.link
  unhurt := by
    rw [link_eq_of_controlState hcontrol, isBroken_eq_of_controlState hcontrol]
    exact h.unhurt

theorem dispatch (h : Sound lossy s) (origin : Origin) (request : Request) :
    Sound lossy (s.dispatch origin request).1 where
  link := by
    rw [(RequestsOnly.dispatch s origin request).link]
    exact h.link
  unhurt := by
    rcases h.unhurt with hlossy | ⟨hlink, hbroken⟩
    · exact .inl hlossy
    · refine .inr ⟨?_, ?_⟩
      · rw [(RequestsOnly.dispatch s origin request).link, hlink]
      · rw [dispatch_isBroken hlink, hbroken]

theorem lossy_of_isBroken (h : Sound lossy s) (hbroken : s.isBroken = true) : lossy := by
  rcases h.unhurt with hlossy | ⟨-, hunbroken⟩
  · exact hlossy
  · simp [hunbroken] at hbroken

end Sound

theorem attend_settles {lossy : Prop} {s : Session} {tick : Nat} (hphase : s.phase = .serving tick)
    (h : Sound lossy s) : Settles lossy s s.attend := by
  unfold attend
  split
  · exact shutdown_settles (.inr rfl)
  next hcloser =>
  have hcloser : s.closer = none := by simpa using hcloser
  split
  · next hbroken => exact lose_settles (h.lossy_of_isBroken hbroken) hcloser
  · next hbroken =>
    refine Settles.stay ?_
    rw [Quiescent, hphase]
    exact ⟨h.link, by simpa using hbroken, hcloser⟩

theorem dispatchCall_cases (s : Session) (ticket : Ticket) (request : Request) :
    s.dispatchCall ticket request = (s.dispatch (.caller ticket) request).1 ∨
    ∃ error, s.dispatchCall ticket request =
      (s.dispatch (.caller ticket) request).1.tell ticket (.refused error) := by
  unfold dispatchCall
  split
  · next h => exact .inl (by rw [h])
  · next h => exact .inr ⟨_, by rw [h]⟩

theorem Sound.dispatchCall {lossy : Prop} {s : Session} (h : Sound lossy s) (ticket : Ticket)
    (request : Request) : Sound lossy (s.dispatchCall ticket request) := by
  have hdispatched := h.dispatch (.caller ticket) request
  rcases dispatchCall_cases s ticket request with hcall | ⟨error, hcall⟩
  · rw [hcall]
    exact hdispatched
  · rw [hcall]
    exact hdispatched.of_controlState rfl

theorem Settles.afterDispatchCall {lossy : Prop} {s final : Session} {ticket : Ticket}
    {request : Request} (h : Settles lossy (s.dispatchCall ticket request) final) :
    Settles lossy s final := by
  rcases dispatchCall_cases s ticket request with hcall | ⟨error, hcall⟩
  · rw [hcall] at h
    exact h.afterDispatch _ _
  · rw [hcall] at h
    exact (h.afterAside (.tell _ _ _)).afterDispatch _ _

theorem Settles.afterDispatchCalls {lossy : Prop} {final : Session}
    (calls : List (Ticket × Request)) :
    ∀ s : Session, Settles lossy (calls.foldl (fun s call ↦ s.dispatchCall call.1 call.2) s) final →
      Settles lossy s final := by
  induction calls with
  | nil => exact fun s h ↦ h
  | cons call rest ih => exact fun s h ↦ (ih _ h).afterDispatchCall

theorem Sound.dispatchCalls {lossy : Prop} (calls : List (Ticket × Request)) :
    ∀ s : Session, Sound lossy s →
      Sound lossy (calls.foldl (fun s call ↦ s.dispatchCall call.1 call.2) s) := by
  induction calls with
  | nil => exact fun s h ↦ h
  | cons call rest ih => exact fun s h ↦ ih _ (h.dispatchCall call.1 call.2)

theorem resume_settles {lossy : Prop} {s : Session} (h : Sound lossy s) :
    Settles lossy s s.resume := by
  unfold resume
  generalize hconnected : s.setStatus .connected = connected
  have hcontrol : connected.controlState = s.controlState := by
    rw [← hconnected, setStatus_controlState]
  refine Settles.afterAside ?_ (hconnected ▸ Aside.setStatus s .connected)
  have hforgotten : Aside connected { connected with deferred := [] } := .silent rfl rfl rfl
  refine Settles.afterAside ?_ hforgotten
  have hsound : Sound lossy { connected with deferred := [] } := h.of_controlState hcontrol
  refine Settles.afterDispatchCalls connected.deferred _ ?_
  have hcalled := hsound.dispatchCalls connected.deferred
  refine Settles.afterAside (attend_settles rfl ?_) (.silent rfl rfl rfl)
  exact ⟨hcalled.link, hcalled.unhurt⟩

/-! ### Restoring -/

theorem await_settles {lossy : Prop} {s : Session} (h : Sound lossy s) (hcloser : s.closer = none)
    {restoration : Restoration} (hanswer : restoration.answer = none) :
    Settles lossy s (s.await restoration) := by
  unfold await
  split
  · next hbroken => exact loseAgain_settles (h.lossy_of_isBroken hbroken) hcloser
  · next hbroken =>
    refine Settles.afterAside (Settles.stay ?_) (.silent rfl rfl rfl)
    exact ⟨⟨h.link, by simpa using hbroken, hcloser⟩, hanswer⟩

theorem restartFirst_settles {lossy : Prop} (restarted handles : List Nat) :
    ∀ s : Session, Sound lossy s → s.closer = none →
      Settles lossy s (s.restartFirst restarted handles) := by
  induction handles with
  | nil => exact fun s h _ ↦ resume_settles h
  | cons handle rest ih =>
    intro s h hcloser
    unfold restartFirst
    split
    · exact ih s h hcloser
    next query _ =>
    have hsound := h.dispatch .restoration query.request
    have hopen := (RequestsOnly.dispatch s .restoration query.request).closer.trans hcloser
    refine Settles.afterDispatch .restoration query.request ?_
    split
    · next t _ hsent =>
      rw [hsent] at hsound hopen ⊢
      exact await_settles hsound hopen rfl
    · next t _ hfailed =>
      rw [hfailed] at hsound hopen ⊢
      have hcontrol := (StreamsOnly.closeStream t .disconnected handle).controlState
      refine Settles.afterClose (ih _ (hsound.of_controlState hcontrol) ?_)
      rw [closer_eq_of_controlState hcontrol]
      exact hopen

theorem restartStreams_settles {lossy : Prop} {s : Session} (h : Sound lossy s)
    (hcloser : s.closer = none) (restarted : List Nat) :
    Settles lossy s (s.restartStreams restarted) :=
  restartFirst_settles restarted _ s h hcloser

theorem restore_settles {lossy : Prop} (requests : List Request) :
    ∀ s : Session, Sound lossy s → s.closer = none → Settles lossy s (s.restore requests) := by
  induction requests with
  | nil => exact fun s h hcloser ↦ restartStreams_settles h hcloser []
  | cons request rest ih =>
    intro s h hcloser
    unfold restore
    have hsound := h.dispatch .restoration request
    have hopen := (RequestsOnly.dispatch s .restoration request).closer.trans hcloser
    refine Settles.afterDispatch .restoration request ?_
    split
    · next t _ hsent =>
      rw [hsent] at hsound hopen ⊢
      exact await_settles hsound hopen rfl
    · next t _ hfailed =>
      rw [hfailed] at hsound hopen ⊢
      have hcontrol := failStanding_controlState t request.method
      refine Settles.afterAside (ih _ (hsound.of_controlState hcontrol) ?_) (.failStanding _ _)
      rw [closer_eq_of_controlState hcontrol]
      exact hopen

/-- The answer that a restoration awaits tells under which id the query of a stream was started
again. -/
def Restoration.Restarts (restoration : Restoration) (handle : Nat) (id : Uuid) : Prop :=
  restoration.awaited = .stream handle ∧
    ∃ result, restoration.answer = some (.ok result) ∧ Uuid.ofValue result = .ok id

/-- Closing a stream whose query was not started again, or leading it to the new id. -/
theorem settleStream_cases (s : Session) (handle : Nat) (response : Response) :
    s.settleStream handle response = s.closeStream .disconnected handle ∧
      (∀ result id, response = .ok result → Uuid.ofValue result ≠ .ok id) ∨
    ∃ result id, response = .ok result ∧ Uuid.ofValue result = .ok id ∧
      s.settleStream handle response = s.rebind handle id := by
  cases response with
  | error e => exact .inl ⟨rfl, fun _ _ hresult ↦ by cases hresult⟩
  | ok result =>
    cases hid : Uuid.ofValue result with
    | error e =>
      refine .inl ⟨by simp only [settleStream, hid], ?_⟩
      intro other id hresult hsome
      cases hresult
      cases hid.symm.trans hsome
    | ok id => exact .inr ⟨result, id, rfl, hid, by simp only [settleStream, hid]⟩

theorem attendRestoration_settles {lossy : Prop} {s : Session} {restoration : Restoration}
    (hphase : s.phase = .restoring restoration) (h : Sound lossy s)
    (hcloser : restoration.answer ≠ none → s.closer = none) :
    Settles lossy s (s.attendRestoration restoration) ∨
    ∃ handle id, restoration.Restarts handle id ∧
      Settles lossy (s.rebind handle id) (s.attendRestoration restoration) := by
  unfold attendRestoration
  split
  · next response method hanswer hawaited =>
    have hopen := hcloser (by simp [hanswer])
    refine .inl ?_
    cases response with
    | ok result => exact restore_settles _ _ h hopen
    | error e =>
      have hcontrol := failStanding_controlState s method
      refine Settles.afterAside (restore_settles _ _ (h.of_controlState hcontrol) ?_)
        (.failStanding s method)
      exact (closer_eq_of_controlState hcontrol).trans hopen
  · next response handle hanswer hawaited =>
    have hopen := hcloser (by simp [hanswer])
    have hrestart (t : Session) (hstreams : StreamsOnly s t) :
        Settles lossy t (t.restartStreams restoration.restarted) :=
      restartStreams_settles (h.of_controlState hstreams.controlState)
        ((closer_eq_of_controlState hstreams.controlState).trans hopen) _
    rcases settleStream_cases s handle response with ⟨hclosed, -⟩ | ⟨result, id, rfl, hid, hbound⟩
    · rw [hclosed]
      exact .inl (hrestart _ (.closeStream s .disconnected handle)).afterClose
    · rw [hbound]
      exact .inr ⟨handle, id, ⟨hawaited, result, hanswer, hid⟩, hrestart _ (.rebind s handle id)⟩
  · next hanswer =>
    refine .inl ?_
    split
    · exact shutdown_settles (.inr rfl)
    next hclosing =>
    have hopen : s.closer = none := by simpa using hclosing
    split
    · next hbroken => exact loseAgain_settles (h.lossy_of_isBroken hbroken) hopen
    · next hbroken =>
      refine Settles.stay ?_
      rw [Quiescent, hphase]
      exact ⟨⟨h.link, by simpa using hbroken, hopen⟩, hanswer⟩

/-- What holds of a session that is to be looked after. It may have been asked to close, its link
may have been found broken, and the answer that it awaits may have come. -/
def Unsettled (lossy : Prop) (s : Session) : Prop :=
  match s.phase with
  | .unopened | .opening => s.Unlinked
  | .serving _ => Sound lossy s
  | .restoring restoration =>
    Sound lossy s ∧ (restoration.answer ≠ none → s.closer = none)
  | .backingOff _ | .dialing | .settled | .stopped | .halted =>
    s.link = .none ∧ s.inflight = .empty

theorem settle_settles {lossy : Prop} {s : Session} (h : Unsettled lossy s) :
    Settles lossy s s.settle ∨
    ∃ restoration handle id, s.phase = .restoring restoration ∧ restoration.Restarts handle id ∧
      Settles lossy (s.rebind handle id) s.settle := by
  have hend (hlink : s.link = .none) (hinflight : s.inflight = .empty)
      (hphase : s.closer = none → s.Unlinked → s.Quiescent) :
      Settles lossy s (if s.closer.isSome then s.shutdown .closed else s) := by
    split
    · exact shutdown_settles (.inr rfl)
    · next hclosing =>
      have hopen : s.closer = none := by simpa using hclosing
      exact .stay (hphase hopen ⟨hlink, hinflight, hopen⟩)
  unfold settle
  unfold Unsettled at h
  cases hphase : s.phase with
  | unopened | opening | stopped | halted =>
    simp only [hphase] at h
    exact .inl (.stay (by simpa only [Quiescent, hphase] using h))
  | serving tick =>
    simp only [hphase] at h
    exact .inl (attend_settles hphase h)
  | backingOff _ | dialing =>
    simp only [hphase] at h
    exact .inl (hend h.1 h.2 fun _ hquiet ↦ by simpa only [Quiescent, hphase] using hquiet)
  | restoring restoration =>
    simp only [hphase] at h
    rcases attendRestoration_settles hphase h.1 h.2 with
      hsettles | ⟨handle, id, hrestarts, hsettles⟩
    · exact .inl hsettles
    · exact .inr ⟨restoration, handle, id, rfl, hrestarts, hsettles⟩
  | settled =>
    simp only [hphase] at h
    refine .inl ?_
    show Settles lossy s (if s.closer.isSome then s.stop else s)
    split
    · exact Settles.afterAside (.stay (stop_quiescent h.1 h.2)) (stop_aside s)
    · next hclosing =>
      refine .stay ?_
      rw [Quiescent, hphase]
      exact ⟨h.1, h.2, by simpa using hclosing⟩

end Session

end Wireline
