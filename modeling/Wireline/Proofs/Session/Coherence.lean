import Wireline.Proofs.Session.Turns
import Wireline.Proofs.Session.Waiting

/-!
# Coherent sessions

Calls wait and streams are without a link only while a session reconnects, and then every open
stream can be started again (`Coherent`). A session never holds back a call that came in before one
that it handles. Both are shown together, turn by turn (`Turn.orderly`), so that the calls that a
session was given are, in order, those that were handled and those that wait (`Queued`). `Steady`
gathers what holds between any two events of a run.
-/

set_option autoImplicit false
set_option relaxedAutoImplicit false

namespace Wireline

namespace Session

/-! ### Coherent states -/

/-- Every open stream can be started again on another link. -/
def Managed (s : Session) : Prop :=
  ∀ handle subscription, s.subscriptions.get? handle = some subscription →
    ∃ query, subscription.query = some query

/-- The streams that are open after something were open before, with the same queries. -/
def OpenBefore (s t : Session) : Prop :=
  ∀ handle subscription, t.subscriptions.get? handle = some subscription →
    ∃ old, s.subscriptions.get? handle = some old ∧ old.query = subscription.query

theorem OpenBefore.of_eq {s t : Session} (h : t.subscriptions = s.subscriptions) :
    OpenBefore s t :=
  fun _ subscription hget ↦ ⟨subscription, h ▸ hget, rfl⟩

/-- The session has no link to serve its callers on, and says so. -/
structure IsReconnecting (s : Session) : Prop where
  status : s.status = .reconnecting
  managed : s.Managed

/-- Nothing is open and nothing waits. -/
structure IsVacant (s : Session) : Prop where
  status : s.status ≠ .connected ∧ s.status ≠ .reconnecting
  closed : ∀ handle, s.subscriptions.get? handle = none
  deferred : s.deferred = []

/-- What is open and what waits fits the phase of the session. -/
def Coherent (s : Session) : Prop :=
  match s.phase with
  | .serving _ => s.status = .connected ∧ s.deferred = []
  | .backingOff _ | .dialing | .restoring _ | .halted => s.IsReconnecting
  | .unopened | .opening | .settled | .stopped => s.IsVacant

/-- A session gets to a coherent state, and of the calls that waited it handled the oldest. -/
structure Orderly (s t : Session) : Prop where
  coherent : t.Coherent
  drains : Drains s t

namespace Orderly

variable {s t final : Session}

theorem after (h : Orderly t final) (hdrains : Drains s t) : Orderly s final :=
  ⟨h.coherent, hdrains.trans h.drains⟩

theorem afterIdle (h : Orderly t final) (hidle : Emits Effect.IsIdle s t)
    (hdeferred : t.deferred = s.deferred) : Orderly s final :=
  h.after (.of_idle hidle hdeferred)

end Orderly

/-! ### The end -/

theorem get?_foldl_closeStream (reason : CloseReason) (handle : Nat) (handles : List Nat) :
    ∀ s : Session, (handles.foldl (fun s handle ↦ s.closeStream reason handle) s).subscriptions.get?
      handle = if handle ∈ handles then none else s.subscriptions.get? handle := by
  induction handles with
  | nil => exact fun s ↦ rfl
  | cons closed rest ih =>
    intro s
    rw [List.foldl_cons, ih, get?_closeStream]
    by_cases hclosed : closed = handle
    · simp [hclosed]
    · simp [hclosed, Ne.symm hclosed]

/-- The streams that are left open when others are closed. -/
theorem get?_of_closeStreams {s : Session} {reason : CloseReason} {test : Subscription → Bool}
    {handle : Nat} {subscription : Subscription}
    (hget : (s.closeStreams reason test).subscriptions.get? handle = some subscription) :
    s.subscriptions.get? handle = some subscription ∧ test subscription = false := by
  rw [closeStreams, get?_foldl_closeStream] at hget
  split at hget
  · cases hget
  · next hkept =>
    refine ⟨hget, ?_⟩
    rw [← Bool.not_eq_true]
    intro htest
    exact hkept (List.mem_map.mpr ⟨(handle, subscription),
      List.mem_filter.mpr ⟨Table.mem_entries_of_get? hget, htest⟩, rfl⟩)

theorem setStatus_subscriptions (s : Session) (status : Status) :
    (s.setStatus status).subscriptions = s.subscriptions :=
  congrArg (·.2.1) (Aside.setStatus s status).streamState

theorem ended_closed (s : Session) (reason : DisconnectReason) (handle : Nat) :
    (s.ended reason).subscriptions.get? handle = none := by
  cases hget : (s.ended reason).subscriptions.get? handle with
  | none => rfl
  | some subscription => cases (get?_of_closeStreams hget).2

theorem stop_unchanged (s : Session) :
    s.stop.status = s.status ∧ s.stop.subscriptions = s.subscriptions ∧
      s.stop.deferred = s.deferred := by
  unfold stop
  split <;> exact ⟨rfl, rfl, rfl⟩

theorem IsVacant.congr {s t : Session} (h : s.IsVacant) (hstatus : t.status = s.status)
    (hsubscriptions : t.subscriptions = s.subscriptions) (hdeferred : t.deferred = s.deferred) :
    t.IsVacant where
  status := by
    rw [hstatus]
    exact h.status
  closed := by
    rw [hsubscriptions]
    exact h.closed
  deferred := hdeferred.trans h.deferred

/-- A status is set in which nobody is served, with nothing open and nothing that waits. -/
theorem setStatus_isVacant {s : Session} {status : Status}
    (hstatus : status ≠ .connected ∧ status ≠ .reconnecting)
    (hclosed : ∀ handle, s.subscriptions.get? handle = none) (hdeferred : s.deferred = []) :
    (s.setStatus status).IsVacant where
  status := by
    rw [setStatus_status]
    exact hstatus
  closed := by
    rw [setStatus_subscriptions]
    exact hclosed
  deferred := (setStatus_deferred s status).trans hdeferred

theorem stop_orderly {s : Session} (h : s.IsVacant) : Orderly s s.stop := by
  obtain ⟨hstatus, hsubscriptions, hdeferred⟩ := stop_unchanged s
  refine ⟨?_, .of_idle (.stop s) hdeferred⟩
  rw [Coherent, stop_phase]
  exact h.congr hstatus hsubscriptions hdeferred

theorem settled_orderly {s : Session} (h : s.IsVacant) :
    Orderly s { s with phase := .settled } where
  coherent := h.congr rfl rfl rfl
  drains := .of_idle (.of_eq rfl) rfl

/-- A session that is given up leaves nothing open and no call that waits. -/
theorem shutdown_orderly (s : Session) (reason : DisconnectReason) :
    Orderly s (s.shutdown reason) := by
  obtain ⟨hdrains, hdeferred⟩ := ended_drains s reason
  have hclosed := ended_closed s reason
  have hstatus : statusAfter reason ≠ .connected ∧ statusAfter reason ≠ .reconnecting := by
    cases reason <;> simp [statusAfter]
  rw [shutdown_eq]
  generalize s.ended reason = t at *
  split
  · have hforgotten : Emits Effect.IsIdle t { t with standing := {} } := .of_eq rfl
    have hvacant : ({ t with standing := {} }.setStatus (statusAfter reason)).IsVacant :=
      setStatus_isVacant hstatus hclosed hdeferred
    refine ((stop_orderly hvacant).afterIdle ?_ ?_).after hdrains
    · exact hforgotten.trans (.setStatus _ hstatus.1)
    · exact setStatus_deferred _ _
  · have hvacant : (t.setStatus (statusAfter reason)).IsVacant :=
      setStatus_isVacant hstatus hclosed hdeferred
    refine ((settled_orderly hvacant).afterIdle ?_ ?_).after hdrains
    · exact .setStatus t hstatus.1
    · exact setStatus_deferred t _

/-! ### Reconnecting -/

namespace IsReconnecting

variable {s t : Session}

theorem of_open (h : s.IsReconnecting) (hstatus : t.status = s.status) (hopen : OpenBefore s t) :
    t.IsReconnecting where
  status := hstatus.trans h.status
  managed := by
    intro handle subscription hget
    obtain ⟨old, hold, hquery⟩ := hopen handle subscription hget
    exact hquery ▸ h.managed handle old hold

theorem congr (h : s.IsReconnecting) (hstatus : t.status = s.status)
    (hsubscriptions : t.subscriptions = s.subscriptions) : t.IsReconnecting :=
  h.of_open hstatus (.of_eq hsubscriptions)

theorem requestsOnly (h : s.IsReconnecting) (hrequests : RequestsOnly s t) : t.IsReconnecting :=
  h.congr hrequests.status hrequests.subscriptions

theorem skips (h : s.IsReconnecting) (hskips : Skips s t) : t.IsReconnecting :=
  h.of_open hskips.passed.status fun _ _ hget ↦ ⟨_, hskips.get?_of_get? hget, rfl⟩

theorem hangUp (h : s.IsReconnecting) : s.hangUp.IsReconnecting := by
  unfold Session.hangUp
  split
  · exact h
  · exact h.congr rfl rfl

end IsReconnecting

theorem retryLater_orderly {s : Session} (h : s.IsReconnecting) : Orderly s s.retryLater := by
  unfold retryLater
  split
  · next delay _ =>
    refine ⟨?_, .of_idle (.of_eq rfl) rfl⟩
    cases delay <;> exact h.congr rfl rfl
  · next backoff _ _ =>
    have hbackoff : Emits Effect.IsIdle s { s with backoff } := .of_eq rfl
    exact (shutdown_orderly { s with backoff } _).afterIdle hbackoff rfl

theorem loseAgain_orderly {s : Session} (h : s.IsReconnecting) : Orderly s s.loseAgain := by
  have hgiven := RequestsOnly.replyToAll s.hangUp .retry
  refine (retryLater_orderly (h.hangUp.requestsOnly hgiven)).afterIdle ?_ ?_
  · exact (Emits.hangUp s).trans (.replyToAll _ _)
  · exact hgiven.deferred.trans (hangUp_deferred s)

theorem lose_orderly (s : Session) : Orderly s s.lose := by
  unfold lose
  split
  · have hgiven := RequestsOnly.replyToAll (s.hangUp.setStatus .reconnecting) .retry
    have hclosed := StreamsOnly.closeStreams
      ((s.hangUp.setStatus .reconnecting).replyToAll .retry) .disconnected
      fun subscription ↦ subscription.query.isNone
    have hwarned : Emits Effect.IsIdle s ((s.hangUp.setStatus .reconnecting).replyToAll .retry) :=
      ((Emits.hangUp s).trans (.setStatus _ (by simp))).trans (.replyToAll _ _)
    refine (retryLater_orderly ⟨?_, ?_⟩).afterIdle (hwarned.trans (.streamsOnly hclosed)) ?_
    · rw [hclosed.status, hgiven.status, setStatus_status]
    · intro handle subscription hget
      exact Option.isSome_iff_exists.mp
        (Option.isNone_eq_false_iff.mp (get?_of_closeStreams hget).2)
    · rw [hclosed.deferred, hgiven.deferred, setStatus_deferred, hangUp_deferred]
  · exact shutdown_orderly s _

theorem attend_orderly {s : Session} (hphase : s.IsServing) (hstatus : s.status = .connected)
    (hdeferred : s.deferred = []) : Orderly s s.attend := by
  unfold attend
  split
  · exact shutdown_orderly s _
  · split
    · exact lose_orderly s
    · obtain ⟨tick, hs⟩ := hphase
      refine ⟨?_, .of_idle (.refl s) rfl⟩
      rw [Coherent, hs]
      exact ⟨hstatus, hdeferred⟩

theorem resume_orderly (s : Session) : Orderly s s.resume := by
  have hnone : s.served.deferred = [] := (served_requestsOnly s).deferred
  have hstatus : s.served.status = .connected :=
    (served_requestsOnly s).status.trans (setStatus_status s .connected)
  have hhandles := served_handles s
  obtain ⟨backoff, tick, hresume⟩ := resume_eq s
  rw [hresume]
  generalize s.served = t at *
  have hresting : Handles t [] { t with backoff := backoff, phase := .serving tick } :=
    .of_idle (.of_eq rfl)
  have hserving : IsServing { t with backoff := backoff, phase := .serving tick } := ⟨tick, rfl⟩
  refine (attend_orderly hserving hstatus hnone).after ⟨s.deferred, ?_, ?_⟩
  · exact ((congrArg (s.deferred ++ ·) hnone).trans (List.append_nil _)).symm
  · have hall := hhandles.trans hresting
    rw [List.append_nil] at hall
    exact hall

theorem await_orderly {s : Session} (h : s.IsReconnecting) (restoration : Restoration) :
    Orderly s (s.await restoration) := by
  unfold await
  split
  · exact loseAgain_orderly h
  · exact ⟨h.congr rfl rfl, .of_idle (.of_eq rfl) rfl⟩

/-- No pass of a restoration handles a call that waits, unless it is the last one. -/
theorem Pass.orderly {s final : Session} {requests : List Request} {restarted : List Nat}
    (h : s.IsReconnecting) (hpass : Pass s requests restarted final) : Orderly s final := by
  have hskipped {t : Session} (hskips : Skips s t) : Drains s t :=
    .of_idle (.of_eq hskips.passed.outbox) hskips.passed.deferred
  have hawaits {t : Session} (hskips : Skips s t) (request : Request) (frame : Octets)
      (restoration : Restoration) :
      Orderly s ((t.launch .restoration request frame).await restoration) := by
    have hlaunched := RequestsOnly.launch t .restoration request frame
    refine (await_orderly ((h.skips hskips).requestsOnly hlaunched) restoration).after ?_
    exact (hskipped hskips).trans
      (.of_handles (.launch t (by simp) request frame) hlaunched.deferred)
  cases hpass with
  | call hskips _ _ => exact hawaits hskips _ _ _
  | stream hskips _ _ _ _ _ => exact hawaits hskips _ _ _
  | done hskips _ _ => exact (resume_orderly _).after (hskipped hskips)

/-! ### Turns -/

theorem OpenBefore.closeStream (s : Session) (reason : CloseReason) (handle : Nat) :
    OpenBefore s (s.closeStream reason handle) := by
  intro other subscription hget
  rw [get?_closeStream] at hget
  split at hget
  · cases hget
  · exact ⟨subscription, hget, rfl⟩

theorem OpenBefore.routeNotification (s : Session) (message : LiveMessage) :
    OpenBefore s (s.routeNotification message) := by
  rcases routeNotification_subscriptions s message with hkept | ⟨closed, -, -, -, hclosed⟩
  · exact .of_eq hkept
  · intro handle subscription hget
    rw [hclosed, Table.get?_erase] at hget
    split at hget
    · cases hget
    · exact ⟨subscription, hget, rfl⟩

theorem Coherent.congr {s t : Session} (h : s.Coherent) (hphase : t.phase = s.phase)
    (hstatus : t.status = s.status) (hdeferred : t.deferred = s.deferred)
    (hopen : OpenBefore s t) : t.Coherent := by
  have hreconnecting (hs : s.IsReconnecting) : t.IsReconnecting := hs.of_open hstatus hopen
  have hvacant (hs : s.IsVacant) : t.IsVacant := by
    refine ⟨hstatus ▸ hs.status, fun handle ↦ ?_, hdeferred.trans hs.deferred⟩
    cases hget : t.subscriptions.get? handle with
    | none => rfl
    | some subscription =>
      obtain ⟨old, hold, -⟩ := hopen handle subscription hget
      cases (hs.closed handle).symm.trans hold
  unfold Coherent at h ⊢
  cases hs : s.phase with
  | serving tick =>
    simp only [hphase, hs] at h ⊢
    exact ⟨hstatus.trans h.1, hdeferred.trans h.2⟩
  | backingOff _ | dialing | restoring _ | halted =>
    simp only [hphase, hs] at h ⊢
    exact hreconnecting h
  | unopened | opening | settled | stopped =>
    simp only [hphase, hs] at h ⊢
    exact hvacant h

namespace Coherent

variable {s : Session}

theorem serving (h : s.Coherent) (hphase : s.IsServing) :
    s.status = .connected ∧ s.deferred = [] := by
  obtain ⟨tick, hs⟩ := hphase
  rw [Coherent, hs] at h
  exact h

theorem reconnecting (h : s.Coherent) (hphase : s.IsRecovering) : s.IsReconnecting := by
  rcases hphase with ⟨wake, hs⟩ | hs | ⟨restoration, hs⟩ <;>
    · rw [Coherent, hs] at h
      exact h

theorem vacant (h : s.Coherent) (hphase : s.phase = .unopened ∨ s.phase = .opening ∨
    s.phase = .settled ∨ s.phase = .stopped) : s.IsVacant := by
  rcases hphase with hs | hs | hs | hs <;>
    · rw [Coherent, hs] at h
      exact h

/-- A session that says that it is connected serves its callers. -/
theorem isServing (h : s.Coherent) (hstatus : s.status = .connected) : s.IsServing := by
  unfold Coherent at h
  cases hs : s.phase with
  | serving tick => exact ⟨tick, hs⟩
  | backingOff wake =>
    simp only [hs] at h
    cases hstatus.symm.trans h.status
  | dialing =>
    simp only [hs] at h
    cases hstatus.symm.trans h.status
  | restoring restoration =>
    simp only [hs] at h
    cases hstatus.symm.trans h.status
  | halted =>
    simp only [hs] at h
    cases hstatus.symm.trans h.status
  | _ =>
    simp only [hs] at h
    exact absurd hstatus h.status.1

/-- A session that says that it reconnects makes attempts to, or has broken down. -/
theorem isRecovering (h : s.Coherent) (hstatus : s.status = .reconnecting) :
    s.IsRecovering ∨ s.phase = .halted := by
  unfold Coherent at h
  cases hs : s.phase with
  | backingOff wake => exact .inl (.inl ⟨wake, hs⟩)
  | dialing => exact .inl (.inr (.inl hs))
  | restoring restoration => exact .inl (.inr (.inr ⟨restoration, hs⟩))
  | halted => exact .inr rfl
  | serving _ =>
    simp only [hs] at h
    cases hstatus.symm.trans h.1
  | unopened | opening | settled | stopped =>
    simp only [hs] at h
    exact absurd hstatus h.status.2

theorem isReconnecting (h : s.Coherent) (hstatus : s.status = .reconnecting) :
    s.IsReconnecting := by
  rcases h.isRecovering hstatus with hrecovering | hhalted
  · exact h.reconnecting hrecovering
  · rw [Coherent, hhalted] at h
    exact h

end Coherent

/-- A session together with the call that an event brings. -/
def receiving (s : Session) (event : Event) : Session :=
  { s with deferred := s.deferred ++ (s.taken event).toList }

theorem receiving_eq {s : Session} {event : Event} (h : s.taken event = none) :
    s.receiving event = s := by
  rw [receiving, h, Option.toList_none, List.append_nil]

section Begin

variable {s : Session}

theorem start_orderly (h : s.IsVacant) : Orderly s s.start where
  coherent := by
    have hvacant : (s.setStatus .connecting).IsVacant :=
      setStatus_isVacant (by simp) h.closed h.deferred
    exact hvacant.congr rfl rfl rfl
  drains := by
    have hopening (t : Session) : Emits Effect.IsIdle t
        ({ t with phase := .opening }.push (.dial s.url)) :=
      ⟨[.dial s.url], rfl, by simp [Effect.IsIdle]⟩
    exact .of_idle ((Emits.setStatus s (by simp)).trans (hopening _))
      (setStatus_deferred s .connecting)

theorem failToOpen_orderly (h : s.IsVacant) (error : TransportError) :
    Orderly s (s.failToOpen error) where
  coherent := by
    have hvacant : (s.setStatus .error).IsVacant :=
      setStatus_isVacant (by simp) h.closed h.deferred
    exact hvacant.congr rfl rfl rfl
  drains := by
    have hstopped (t : Session) : Emits Effect.IsIdle t
        ({ t with phase := .stopped }.push (.failedToOpen (.transport error))) :=
      ⟨[.failedToOpen (.transport error)], rfl, by simp [Effect.IsIdle]⟩
    exact .of_idle ((Emits.setStatus s (by simp)).trans (hstopped _))
      (setStatus_deferred s .error)

theorem beginServing_orderly (h : s.deferred = []) : Orderly s s.beginServing := by
  unfold beginServing
  generalize hu : ({ s.attach with
    standing := { s.standing with url := some s.url }
    backoff := s.backoff.reset s.now
    phase := .serving (s.now + s.keepAlive) } : Session) = u
  have hphase : (u.setStatus .connected).phase = .serving (s.now + s.keepAlive) := by
    rw [phase_eq_of_controlState (setStatus_controlState u _), ← hu]
  have hdeferred : (u.setStatus .connected).deferred = s.deferred := by
    rw [setStatus_deferred, ← hu]
    rfl
  have hbegun : Handles s [] u := .of_idle (.of_eq (by rw [← hu]; rfl))
  have hopened : Handles (u.setStatus .connected) [] ((u.setStatus .connected).push .opened) :=
    .of_idle (.push _ (by trivial))
  refine ⟨?_, .of_handles ((hbegun.trans (setStatus_handles u _)).trans hopened) hdeferred⟩
  rw [Coherent, show ((u.setStatus .connected).push .opened).phase = _ from hphase]
  exact ⟨setStatus_status u _, hdeferred.trans h⟩

end Begin

/-- A stream that is opened while the session reconnects can be started again. -/
theorem register_coherent {s : Session} (h : s.Coherent) (hopen : s.isOpen)
    {query : Option LiveQuery} (hadmits : s.admits query) (ticket : Ticket) {id : Uuid} :
    ((s.register id query).1.tell ticket
      (.subscribed (.ok (s.register id query).2))).Coherent := by
  simp only [admits, Bool.or_eq_true, Bool.and_eq_true, decide_eq_true_eq] at hadmits
  rcases isOpen_cases hopen with hserving | hrecovering | hsettled
  · have hquiet := h.serving hserving
    obtain ⟨tick, hs⟩ := hserving
    simp only [Coherent, tell, push, register, hs]
    exact hquiet
  · have hreconnecting := h.reconnecting hrecovering
    have hquery : query.isSome := by
      rcases hadmits with hconnected | hknown
      · cases hreconnecting.status.symm.trans hconnected
      · exact hknown.2
    have hmanaged : ((s.register id query).1.tell ticket
        (.subscribed (.ok (s.register id query).2))).IsReconnecting := by
      refine ⟨hreconnecting.status, fun handle subscription hget ↦ ?_⟩
      simp only [tell, push, register, Table.get?_set] at hget
      split at hget
      · cases hget
        exact Option.isSome_iff_exists.mp hquery
      · exact hreconnecting.managed handle subscription hget
    rcases hrecovering with ⟨wake, hs⟩ | hs | ⟨restoration, hs⟩ <;>
      · simp only [Coherent, tell, push, register, hs] at hmanaged ⊢
        exact hmanaged
  · have hvacant := h.vacant (.inr (.inr (.inl hsettled)))
    rcases hadmits with hconnected | hknown
    · exact absurd hconnected hvacant.status.1
    · exact absurd hknown.1 hvacant.status.2

/-- A command that is obeyed while nobody is served, or that is not a call, leaves the session as
coherent as it was, and a call waits behind the others or is refused. -/
theorem obey_orderly {s : Session} (h : s.Coherent) (hopen : s.isOpen) {command : Command}
    (hclose : ∀ ticket, command ≠ .close ticket)
    (hcall : s.IsServing → ∀ ticket request, command ≠ .request ticket request) :
    Orderly (s.receiving (.command command)) (s.obey command) := by
  cases command with
  | request ticket request =>
    have htaken : s.taken (.command (.request ticket request)) = some (ticket, request) :=
      if_pos hopen
    rcases isOpen_cases hopen with hserving | hrecovering | hsettled
    · exact absurd rfl (hcall hserving ticket request)
    · have hobeyed : s.obey (.request ticket request) =
          s.receiving (.command (.request ticket request)) := by
        rw [receiving, htaken]
        rcases hrecovering with ⟨wake, hs⟩ | hs | ⟨restoration, hs⟩ <;>
          simp only [obey, Session.request, hs, Option.toList_some]
      rw [hobeyed]
      refine ⟨?_, .of_idle (.refl _) rfl⟩
      have hreconnecting := h.reconnecting hrecovering
      rcases hrecovering with ⟨wake, hs⟩ | hs | ⟨restoration, hs⟩ <;>
        · simp only [Coherent, receiving, hs]
          exact hreconnecting.congr rfl rfl
    · have hvacant := h.vacant (.inr (.inr (.inl hsettled)))
      have hobeyed : s.obey (.request ticket request) =
          s.tell ticket (.refused .unavailable) := by
        simp only [obey, Session.request, hsettled]
      rw [hobeyed]
      refine ⟨h.congr rfl rfl rfl (.of_eq rfl), [(ticket, request)], ?_, ?_, [], ?_, ?_⟩
      · simp [receiving, htaken, hvacant.deferred, tell, push]
      · simp [handled, receiving, tell, push, Effect.handled?]
      · simp [writtenCalls, written, receiving, tell, push, Effect.outgoing?]
      · exact List.nil_sublist _
  | subscribe ticket id query =>
    rw [receiving_eq rfl]
    simp only [obey, subscribe]
    split
    · next hadmits =>
      exact ⟨register_coherent h hopen hadmits ticket, .of_idle (.push _ (by trivial)) rfl⟩
    · exact ⟨h.congr rfl rfl rfl (.of_eq rfl), .of_idle (.push s (by trivial)) rfl⟩
  | kill ticket handle =>
    rw [receiving_eq rfl]
    have hstreams := StreamsOnly.closeStream s .killed handle
    have htold : Emits Effect.IsIdle (s.closeStream .killed handle)
        (s.obey (.kill ticket handle)) := .push _ (by trivial)
    refine ⟨?_, .of_idle ((Emits.streamsOnly hstreams).trans htold) hstreams.deferred⟩
    exact h.congr (phase_eq_of_controlState hstreams.controlState) hstreams.status hstreams.deferred
      (.closeStream s .killed handle)
  | standing ticket =>
    rw [receiving_eq rfl]
    exact ⟨h.congr rfl rfl rfl (.of_eq rfl), .of_idle (.push s (by trivial)) rfl⟩
  | close ticket => exact absurd rfl (hclose ticket)

/-- The event makes the session go on with the restoration of its link: the link is open, or the
call that was awaited is answered. -/
inductive Proceeds (s : Session) : Event → Session → Prop
  | linked (hphase : s.phase = .dialing) : Proceeds s .linked s.attach
  | restored {frame : Octets} {n : UInt64} {response : Response} {restoration : Restoration}
      (hphase : s.phase = .restoring restoration) (hexpected : s.Expects n)
      (hread : read frame = .ok (.reply n response)) :
      Proceeds s (.frame frame)
        ((s.routeReply n.toNat response).conclude response restoration.awaited)

namespace Proceeds

variable {s v : Session} {event : Event}

theorem isRecovering (h : Proceeds s event v) : s.IsRecovering := by
  cases h with
  | linked hphase => exact .inr (.inl hphase)
  | restored hphase _ _ => exact .inr (.inr ⟨_, hphase⟩)

theorem unchanged (h : Proceeds s event v) :
    v.status = s.status ∧ v.deferred = s.deferred ∧ v.payloadLimit = s.payloadLimit ∧
      v.nextId = s.nextId := by
  cases h with
  | linked _ => exact ⟨rfl, rfl, rfl, rfl⟩
  | @restored frame n response restoration _ _ _ =>
    have hrequests := RequestsOnly.routeReply s n.toNat response
    have hconcludes := concludes (s.routeReply n.toNat response) response restoration.awaited
    have hpassed := hconcludes.passed
    exact ⟨hpassed.status.trans hrequests.status, hpassed.deferred.trans hrequests.deferred,
      hpassed.payloadLimit.trans hrequests.payloadLimit,
      hconcludes.nextId.trans (routeReply_nextId s n.toNat response)⟩

theorem openBefore (h : Proceeds s event v) : OpenBefore s v := by
  cases h with
  | linked _ => exact .of_eq rfl
  | @restored frame n response restoration _ _ _ =>
    intro handle subscription hget
    obtain ⟨old, hold, hquery, -⟩ := (concludes _ _ _).get?_of_get? hget
    rw [(RequestsOnly.routeReply s n.toNat response).subscriptions] at hold
    exact ⟨old, hold, hquery⟩

theorem emits (h : Proceeds s event v) : Emits Effect.IsIdle s v := by
  cases h with
  | linked _ => exact .of_eq rfl
  | @restored frame n response restoration _ _ _ =>
    exact (Emits.routeReply s n.toNat response).trans (.of_eq (concludes _ _ _).passed.outbox)

theorem isReconnecting (h : Proceeds s event v) (hs : s.Coherent) : v.IsReconnecting :=
  (hs.reconnecting h.isRecovering).of_open h.unchanged.1 h.openBefore

/-- What a session comes to that goes on with the restoration. -/
theorem orderly (h : Proceeds s event v) (hs : s.Coherent) {final : Session}
    {requests : List Request} {begun : List Nat} (hpass : Pass v requests begun final) :
    Orderly s final :=
  (hpass.orderly (h.isReconnecting hs)).afterIdle h.emits h.unchanged.2.1

end Proceeds

theorem routeReply_orderly {s : Session} (h : s.Coherent) {id : Nat} {response : Response}
    (hphase : (s.routeReply id response).phase = s.phase) :
    Orderly s (s.routeReply id response) := by
  have hrequests := RequestsOnly.routeReply s id response
  exact ⟨h.congr hphase hrequests.status hrequests.deferred (.of_eq hrequests.subscriptions),
    .of_idle (.routeReply s id response) hrequests.deferred⟩

/-- A call that comes while the session serves its callers is handled at once. -/
theorem called_orderly {s : Session} (h : s.Coherent) (hphase : s.IsServing) (ticket : Ticket)
    (request : Request) :
    Orderly (s.receiving (.command (.request ticket request)))
      (s.dispatchCall ticket request).attend := by
  obtain ⟨hstatus, hdeferred⟩ := h.serving hphase
  have hopen : s.isOpen := by
    obtain ⟨tick, hs⟩ := hphase
    simp only [isOpen, hs]
  have hrequests := RequestsOnly.dispatchCall s ticket request
  have hserving : (s.dispatchCall ticket request).IsServing := by
    obtain ⟨tick, hs⟩ := hphase
    exact ⟨tick, (dispatchCall_phase s ticket request).trans hs⟩
  have hnone := hrequests.deferred.trans hdeferred
  have hreceived : Handles (s.receiving (.command (.request ticket request))) [] s :=
    .of_idle (.of_eq rfl)
  refine (attend_orderly hserving (hrequests.status.trans hstatus) hnone).after
    ⟨[(ticket, request)], ?_, hreceived.trans (dispatchCalls_handles s [(ticket, request)])⟩
  simp [receiving, taken, hopen, hdeferred, hnone]

theorem pinged_orderly {s : Session} (h : s.Coherent) (hphase : s.IsServing) {now tick : Nat} :
    Orderly s { { s with now }.ping with phase := .serving tick }.attend := by
  obtain ⟨hstatus, hdeferred⟩ := h.serving hphase
  have hlater : Drains s { s with now } := .of_idle (.of_eq rfl) rfl
  obtain ⟨hdrains, hkept, hwaiting⟩ := ping_drains { s with now }
  generalize Session.ping { s with now } = u at *
  have hnext : Drains u { u with phase := .serving tick } := .of_idle (.of_eq rfl) rfl
  have hserving : IsServing { u with phase := .serving tick } := ⟨tick, rfl⟩
  exact (attend_orderly hserving (hkept.trans hstatus) (hwaiting.trans hdeferred)).after
    ((hlater.trans hdrains).trans hnext)

/-- Every turn leads to a coherent state, and handles calls in the order in which they came. -/
theorem Turn.orderly {s t : Session} {event : Event} (h : s.Coherent) (hlive : s.LiveTable)
    (hturn : Turn s event t) : Orderly (s.receiving event) t := by
  cases hturn with
  | rest heq _ htaken =>
    rw [receiving_eq htaken, heq]
    exact ⟨h.congr rfl rfl rfl (.of_eq rfl), .of_idle (.of_eq rfl) rfl⟩
  | started hphase =>
    rw [receiving_eq rfl]
    exact start_orderly (h.vacant (.inl hphase))
  | opened hphase =>
    rw [receiving_eq rfl]
    exact beginServing_orderly (h.vacant (.inr (.inl hphase))).deferred
  | failed hphase error =>
    rw [receiving_eq rfl]
    exact failToOpen_orderly (h.vacant (.inr (.inl hphase))) error
  | obeyed hopen hclose hcall => exact obey_orderly h hopen hclose hcall
  | called hphase ticket request => exact called_orderly h hphase ticket request
  | pinged hphase nanoseconds =>
    rw [receiving_eq rfl]
    exact pinged_orderly h hphase
  | @notified frame message _ _ =>
    rw [receiving_eq rfl]
    have hstreams := StreamsOnly.routeNotification s message
    exact ⟨h.congr (phase_eq_of_controlState hstreams.controlState) hstreams.status
      hstreams.deferred (.routeNotification s message), .of_idle (.streamsOnly hstreams)
      hstreams.deferred⟩
  | @answered frame n response hphase _ =>
    rw [receiving_eq rfl]
    refine routeReply_orderly h ?_
    rcases routeReply_phase s n.toNat response with hsame | ⟨hexpected, restoration, hs, -⟩
    · exact hsame
    · rcases hphase with ⟨tick, hserving⟩ | ⟨-, hunexpected⟩
      · cases hs.symm.trans hserving
      · exact absurd hexpected hunexpected
  | lost _ =>
    rw [receiving_eq rfl]
    exact lose_orderly s
  | lostAgain hphase =>
    rw [receiving_eq rfl]
    exact loseAgain_orderly (h.reconnecting (.inr (.inr ⟨_, hphase⟩)))
  | dialed hphase nanoseconds =>
    rw [receiving_eq rfl]
    have hreconnecting := h.reconnecting (.inl ⟨_, hphase⟩)
    have hdialing : Emits Effect.IsIdle s
        ({ s with now := s.now + nanoseconds, phase := .dialing }.push (.dial s.url)) :=
      ⟨[.dial s.url], rfl, by simp [Effect.IsIdle]⟩
    exact ⟨hreconnecting.congr rfl rfl, .of_idle hdialing rfl⟩
  | refused hphase _ =>
    rw [receiving_eq rfl]
    exact retryLater_orderly (h.reconnecting (.inr (.inl hphase)))
  | linked hphase =>
    rw [receiving_eq rfl]
    exact (Proceeds.linked hphase).orderly h (restore_pass _ _ (hlive.of_streamState rfl))
  | @restored frame n response restoration hphase hexpected hread =>
    rw [receiving_eq rfl]
    exact (Proceeds.restored hphase hexpected hread).orderly h
      (answered_pass s response hlive n.toNat restoration)
  | @ended event u heq _ htaken reason =>
    rw [receiving_eq htaken]
    have houtbox : u.outbox = s.outbox := by rw [heq]
    have hdeferred : u.deferred = s.deferred := by rw [heq]
    exact (shutdown_orderly u reason).afterIdle (.of_eq houtbox) hdeferred
  | @stopped event u heq hphase htaken =>
    rw [receiving_eq htaken]
    have houtbox : u.outbox = s.outbox := by rw [heq]
    have hdeferred : u.deferred = s.deferred := by rw [heq]
    have hvacant : u.IsVacant := by
      refine (h.vacant (.inr (.inr (.inl hphase)))).congr ?_ ?_ hdeferred
      · rw [heq]
      · rw [heq]
    exact (stop_orderly hvacant).afterIdle (.of_eq houtbox) hdeferred

/-! ### Runs -/

/-- What holds between any two events of a run. -/
structure Steady (s : Session) : Prop where
  quiescent : s.Quiescent
  accounted : s.Accounted
  liveTable : s.LiveTable
  ascending : s.Ascending
  coherent : s.Coherent

namespace Steady

variable {s : Session}

theorem turn (h : s.Steady) (event : Event) : Turn s event (s.step event) :=
  step_turn h.quiescent h.accounted event

theorem step (h : s.Steady) (event : Event) : (s.step event).Steady where
  quiescent := step_quiescent h.quiescent event
  accounted := accounted_run h.quiescent h.accounted [event]
  liveTable := liveTable_run h.quiescent h.liveTable [event]
  ascending := ascending_run h.quiescent h.liveTable h.ascending [event]
  coherent := ((h.turn event).orderly h.coherent h.liveTable).coherent

theorem run (h : s.Steady) (events : List Event) : (s.run events).Steady := by
  induction events generalizing s with
  | nil => exact h
  | cons event rest ih => exact ih (h.step event)

end Steady

theorem steady_ofConfig (url : String) (config : ClientConfig) (payloadLimit : Option Nat) :
    (ofConfig url config payloadLimit).Steady where
  quiescent := ofConfig_quiescent url config payloadLimit
  accounted := accounted_ofConfig url config payloadLimit
  liveTable := liveTable_ofConfig url config payloadLimit
  ascending := .nil
  coherent := ⟨by simp [ofConfig], fun _ ↦ rfl, rfl⟩

/-- The calls of callers that were taken in a run, in the order in which they came. -/
def received (s : Session) : List Event → List (Ticket × Request)
  | [] => []
  | event :: events => (s.taken event).toList ++ (s.step event).received events

/-- Of the calls that were received the last ones wait and all others were handled, both in the
order in which they came. -/
def Queued (s : Session) (received : List (Ticket × Request)) : Prop :=
  ∃ earlier, received = earlier ++ s.deferred ∧ s.handled = earlier.map Prod.fst ∧
    s.writtenCalls.Sublist earlier

theorem Queued.step {s : Session} {received : List (Ticket × Request)} (h : s.Queued received)
    (hs : s.Steady) (event : Event) :
    (s.step event).Queued (received ++ (s.taken event).toList) := by
  obtain ⟨earlier, hreceived, hhandled, hwritten⟩ := h
  obtain ⟨calls, hdeferred, hcalls⟩ :=
    ((hs.turn event).orderly hs.coherent hs.liveTable).drains
  obtain ⟨frames, hframes, hsublist⟩ := hcalls.written
  refine ⟨earlier ++ calls, ?_, ?_, ?_⟩
  · rw [hreceived, List.append_assoc, List.append_assoc]
    exact congrArg (earlier ++ ·) hdeferred
  · rw [hcalls.handled, List.map_append, ← hhandled]
    rfl
  · rw [hframes]
    exact List.Sublist.append hwritten hsublist

/-- No call is handled before one that came earlier. -/
theorem queued_run (events : List Event) :
    ∀ (s : Session) (received : List (Ticket × Request)), s.Steady → s.Queued received →
      (s.run events).Queued (received ++ s.received events) := by
  induction events with
  | nil =>
    intro s received _ h
    rwa [Session.received, List.append_nil]
  | cons event rest ih =>
    intro s received hs h
    have hrest := ih (s.step event) _ (hs.step event) (h.step hs event)
    rwa [List.append_assoc] at hrest

end Session

end Wireline
