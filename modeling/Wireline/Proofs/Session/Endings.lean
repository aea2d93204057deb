import Mathlib.Data.List.Induction
import Wireline.Proofs.Session.Closings

/-!
# What streams are closed for

What an event can end a stream for is listed in `Ends`: the client or the server kills the stream,
the link is lost and the query is not known, or the server does not start the query again. Besides,
a stream is closed while its link is restored if the call that would start its query again cannot be
sent (`Unsendable`). As long as a session is not over it closes no stream for anything else
(`Turn.sheds`), and what ends a stream closes it for that reason and no other (`Ends.closes`,
`Ends.reason_eq`). A run closes what its steps close (`closed_run`, `ended_run`).
-/

set_option autoImplicit false
set_option relaxedAutoImplicit false

namespace Wireline

namespace Session

/-! ### What streams are closed for -/

/-- What ends a stream when an event comes, and the reason that its closing event gives. -/
inductive Ends (s : Session) (event : Event) (handle : Nat) : CloseReason → Prop
  /-- The client kills the stream. -/
  | killed {ticket : Ticket} (hevent : event = .command (.kill ticket handle)) (hopen : s.isOpen) :
      Ends s event handle .killed
  /-- The server has ended the query, and of its streams this one is found. -/
  | finished {frame : Octets} {message : LiveMessage} (hevent : event = .frame frame)
      (hread : read frame = .ok (.notification message)) (hlink : s.link ≠ .none)
      (hkilled : message.action = .killed) (hretired : message.id ∉ s.retired)
      (hhandle : s.handleFor? message.id = some handle) : Ends s event handle .killed
  /-- The link is lost, and the query of the stream is not known. -/
  | unmanaged {subscription : Subscription}
      (hget : s.subscriptions.get? handle = some subscription) (hquery : subscription.query = none)
      (hstatus : s.status = .connected) (hlost : (s.step event).status = .reconnecting) :
      Ends s event handle .disconnected
  /-- The server does not start the query of the stream again. -/
  | refused {frame : Octets} {n : UInt64} {response : Response} {restoration : Restoration}
      (hevent : event = .frame frame) (hread : read frame = .ok (.reply n response))
      (hexpected : s.Expects n) (hphase : s.phase = .restoring restoration)
      (hawaited : restoration.awaited = .stream handle)
      (hresponse : ∀ result id, response = .ok result → Uuid.ofValue result ≠ .ok id) :
      Ends s event handle .disconnected

/-- The call that would start the query of a stream again could not be sent under one of the ids
that were used up until the next one was `nextId`. -/
def Unsendable (s : Session) (nextId handle : Nat) : Prop :=
  ∃ subscription query id error, s.subscriptions.get? handle = some subscription ∧
    subscription.query = some query ∧ s.nextId ≤ id ∧ id < nextId ∧
    s.frameOf query.request id = .error error

/-- What a stream is closed for while the session is not over: something ends it, or the session
goes on to restore its link and could not start its query again. -/
def ClosesFor (s : Session) (event : Event) (handle : Nat) (reason : CloseReason) : Prop :=
  Ends s event handle reason ∨
    reason = .disconnected ∧ (∃ v, Proceeds s event v) ∧
      s.Unsendable (s.step event).nextId handle

section Restoration

variable {s v t final : Session} {event : Event}

theorem Unsendable.mono {nextId later handle : Nat} (h : s.Unsendable nextId handle)
    (hlater : nextId ≤ later) : s.Unsendable later handle := by
  obtain ⟨subscription, query, id, error, hget, hquery, hid, hused, hframe⟩ := h
  exact ⟨subscription, query, id, error, hget, hquery, hid, Nat.lt_of_lt_of_le hused hlater, hframe⟩

theorem Unsendable.of_proceeds (h : Proceeds s event v) {nextId handle : Nat}
    (hunsendable : v.Unsendable nextId handle) : s.Unsendable nextId handle := by
  obtain ⟨subscription, query, id, error, hget, hquery, hid, hused, hframe⟩ := hunsendable
  obtain ⟨old, hold, hsame⟩ := h.openBefore handle subscription hget
  obtain ⟨-, -, hlimit, hnextId⟩ := h.unchanged
  rw [frameOf_congr hlimit] at hframe
  exact ⟨old, query, id, error, hold, hsame.trans hquery, hnextId ▸ hid, hused, hframe⟩

theorem Skips.sheds (h : Skips s t) (hs : s.LiveTable) :
    Sheds (fun handle reason ↦ reason = .disconnected ∧ s.Unsendable t.nextId handle) s t := by
  have hlater {nextId later : Nat} (hle : nextId ≤ later) (handle : Nat) (reason : CloseReason)
      (h : reason = .disconnected ∧ s.Unsendable nextId handle) :
      reason = .disconnected ∧ s.Unsendable later handle := ⟨h.1, h.2.mono hle⟩
  induction h with
  | refl => exact .of_streamState hs rfl
  | @call t request error _ _ ih =>
    have haside := Aside.failStanding t.spent request.method
    have hstreams : (t.spent.failStanding request.method).streamState = t.streamState :=
      haside.streamState
    have hnextId : (t.spent.failStanding request.method).nextId = t.nextId + 1 :=
      nextId_eq_of_requestState haside.requestState
    rw [hnextId]
    exact (ih.congr_right hstreams).mono (hlater (Nat.le_succ _))
  | @stream t handle subscription query error hskips hget hquery hframe ih =>
    have hlive : t.spent.LiveTable := (hskips.liveTable hs).of_streamState rfl
    have hnextId : (t.spent.closeStream .disconnected handle).nextId = t.nextId + 1 :=
      nextId_eq_of_requestState
        (StreamsOnly.closeStream t.spent .disconnected handle).requestState
    have hunsendable : s.Unsendable (t.nextId + 1) handle :=
      ⟨subscription, query, t.nextId, error, hskips.get?_of_get? hget, hquery, hskips.nextId_le,
        Nat.lt_succ_self _, frameOf_congr hskips.passed.payloadLimit ▸ hframe⟩
    rw [hnextId]
    exact (ih.mono (hlater (Nat.le_succ _))).trans hs
      (Sheds.congr_left (t := t.spent) rfl (.closeStream hlive fun _ ↦ ⟨rfl, hunsendable⟩))

theorem Proceeds.liveTable (h : Proceeds s event v) (hs : s.LiveTable) : v.LiveTable := by
  cases h with
  | linked _ => exact hs.of_streamState rfl
  | restored _ _ _ =>
    exact (concludes _ _ _).liveTable
      (hs.of_streamState (RequestsOnly.routeReply s _ _).streamState)

theorem Proceeds.sheds (h : Proceeds s event v) (hs : s.LiveTable) :
    Sheds (Ends s event) s v := by
  cases h with
  | linked _ => exact .of_streamState hs rfl
  | @restored frame n response restoration hphase hexpected hread =>
    have hstreams := (RequestsOnly.routeReply s n.toNat response).streamState
    have hanswered := hs.of_streamState hstreams
    refine Sheds.congr_left hstreams ?_
    have hconcludes := concludes (s.routeReply n.toNat response) response restoration.awaited
    generalize (s.routeReply n.toNat response).conclude response restoration.awaited = final at *
    generalize hawaited : restoration.awaited = awaited at *
    cases hconcludes with
    | stands => exact .of_streamState hanswered rfl
    | fails => exact .of_streamState hanswered (Aside.failStanding _ _).streamState
    | closes hresponse =>
      exact .closeStream hanswered fun _ ↦
        .refused rfl hread hexpected hphase hawaited hresponse
    | rebinds _ _ => exact .rebind hanswered _ _

theorem await_sheds {why : Nat → CloseReason → Prop} (hs : s.LiveTable) (restoration : Restoration)
    (hover : (s.await restoration).IsOver → ∀ handle, why handle .disconnected) :
    Sheds why s (s.await restoration) := by
  unfold await at hover ⊢
  split
  · next hbroken =>
    simp only [if_pos hbroken] at hover
    exact loseAgain_sheds hs hover
  · exact .of_streamState hs rfl

theorem resume_sheds {why : Nat → CloseReason → Prop} (hs : s.LiveTable) (hmanaged : s.Managed)
    (hover : s.resume.IsOver → ∀ handle, why handle .disconnected) : Sheds why s s.resume := by
  have hserved : s.served.streamState = s.streamState :=
    (served_requestsOnly s).streamState.trans (Aside.setStatus s .connected).streamState
  obtain ⟨backoff, tick, hresume⟩ := resume_eq s
  rw [hresume] at hover ⊢
  generalize hu : ({ s.served with backoff := backoff, phase := .serving tick } : Session) = u at *
  have hstreams : u.streamState = s.streamState := by
    rw [← hu]
    exact hserved
  have hsubscriptions : u.subscriptions = s.subscriptions := congrArg (·.2.1) hstreams
  refine Sheds.congr_left hstreams (attend_sheds (hs.of_streamState hstreams) ?_ hover)
  intro _ handle subscription hget hquery
  obtain ⟨query, hknown⟩ := hmanaged handle subscription (hsubscriptions ▸ hget)
  cases hknown.symm.trans hquery

/-- What a pass closes, it could not start again. -/
theorem Pass.sheds {why : Nat → CloseReason → Prop} {requests : List Request} {begun : List Nat}
    (hpass : Pass v requests begun final) (hv : v.LiveTable) (hmanaged : v.Managed)
    (hunsendable : ∀ handle, v.Unsendable final.nextId handle → why handle .disconnected)
    (hover : final.IsOver → ∀ handle, why handle .disconnected) : Sheds why v final := by
  have hskipped {t : Session} (hskips : Skips v t) (hnextId : t.nextId ≤ final.nextId) :
      Sheds why v t :=
    (hskips.sheds hv).mono fun handle reason h ↦ h.1 ▸ hunsendable handle (h.2.mono hnextId)
  have hawaits {t : Session} (hskips : Skips v t) {request : Request} {frame : Octets}
      {restoration : Restoration}
      (hfinal : final = (t.launch .restoration request frame).await restoration) :
      Sheds why v final := by
    have hstreams := (RequestsOnly.launch t .restoration request frame).streamState
    have hnextId : final.nextId = t.nextId + 1 := by
      rw [hfinal, await_nextId, launch_nextId]
    have hawaited := await_sheds ((hskips.liveTable hv).of_streamState hstreams) restoration
      (hfinal ▸ hover)
    rw [← hfinal] at hawaited
    exact (hskipped hskips (by omega)).trans hv (hawaited.congr_left hstreams)
  cases hpass with
  | call hskips _ _ => exact hawaits hskips rfl
  | stream hskips _ _ _ _ _ => exact hawaits hskips rfl
  | done hskips _ _ =>
    refine (hskipped hskips (resume_nextId_le _)).trans hv
      (resume_sheds (hskips.liveTable hv) ?_ hover)
    exact fun handle subscription hget ↦ hmanaged handle subscription (hskips.get?_of_get? hget)

end Restoration

/-! ### Steps -/

section Steps

variable {s t : Session} {event : Event}

theorem ping_streamState (s : Session) : s.ping.streamState = s.streamState := by
  rcases ping_cases s with h | ⟨haside, -⟩
  · rw [h]
  · exact haside.streamState.trans (RequestsOnly.dispatch s _ _).streamState

theorem obey_sheds (hs : s.LiveTable) (hopen : s.isOpen) (command : Command) :
    Sheds (Ends s (.command command)) s (s.obey command) := by
  have htold (u : Session) (ticket : Ticket) (answer : Answer) :
      (u.tell ticket answer).streamState = u.streamState := rfl
  cases command with
  | request ticket request =>
    simp only [obey, Session.request]
    split
    · exact .of_streamState hs (RequestsOnly.dispatchCall s ticket request).streamState
    all_goals exact .of_streamState hs rfl
  | subscribe ticket id query =>
    simp only [obey, subscribe]
    split
    · exact (Sheds.register hs id query).congr_right (htold _ _ _)
    · exact .of_streamState hs rfl
  | kill ticket handle =>
    have hclosed : Sheds (Ends s (.command (.kill ticket handle))) s
        (s.closeStream .killed handle) := .closeStream hs fun _ ↦ .killed rfl hopen
    exact hclosed.congr_right (htold _ _ _)
  | standing ticket => exact .of_streamState hs rfl
  | close ticket => exact .of_streamState hs rfl

/-- What a step closes, it closes for a reason, and it closes everything if the session is over. -/
theorem Turn.sheds (hs : s.Steady) (h : Turn s event t) (hstep : t = s.step event) :
    Sheds (fun handle reason ↦ ClosesFor s event handle reason ∨ t.IsOver) s t := by
  have hlive := hs.liveTable
  have hends {u : Session} (h : Sheds (Ends s event) s u) :
      Sheds (fun handle reason ↦ ClosesFor s event handle reason ∨ t.IsOver) s u :=
    h.mono fun _ _ h ↦ .inl (.inl h)
  -- nothing else than the loss of the link makes a session reconnect that was connected
  have hunmanaged {u : Session} (hserving : s.IsServing) (hstreams : u.streamState = s.streamState)
      (hlost : t.status = .reconnecting) (handle : Nat) (subscription : Subscription)
      (hget : u.subscriptions.get? handle = some subscription)
      (hquery : subscription.query = none) :
      ClosesFor s event handle .disconnected ∨ t.IsOver := by
    have hsubscriptions : u.subscriptions = s.subscriptions := congrArg (·.2.1) hstreams
    exact .inl (.inl (.unmanaged (hsubscriptions ▸ hget) hquery
      (hs.coherent.serving hserving).1 (hstep ▸ hlost)))
  have hproceeds {v : Session} (hproceeds : Proceeds s event v) {requests : List Request}
      {begun : List Nat} (hpass : Pass v requests begun t) :
      Sheds (fun handle reason ↦ ClosesFor s event handle reason ∨ t.IsOver) s t := by
    refine (hends (hproceeds.sheds hlive)).trans hlive
      (hpass.sheds (hproceeds.liveTable hlive) (hproceeds.isReconnecting hs.coherent).managed ?_ ?_)
    · exact fun handle h ↦
        .inl (.inr ⟨rfl, ⟨v, hproceeds⟩, hstep ▸ h.of_proceeds hproceeds⟩)
    · exact fun hover handle ↦ .inr hover
  clear hstep
  cases h with
  | rest heq _ _ => exact .of_streamState hlive (by rw [heq]; rfl)
  | started _ => exact .of_streamState hlive (Aside.setStatus s .connecting).streamState
  | opened _ =>
    exact .of_streamState hlive (Aside.setStatus _ .connected).streamState
  | failed _ _ => exact .of_streamState hlive (Aside.setStatus s .error).streamState
  | obeyed hopen _ _ => exact hends (obey_sheds hlive hopen _)
  | called hserving ticket request =>
    have hstreams := (RequestsOnly.dispatchCall s ticket request).streamState
    exact (attend_sheds (hlive.of_streamState hstreams) (hunmanaged hserving hstreams)
      fun hover _ ↦ .inr hover).congr_left hstreams
  | @pinged tick hserving nanoseconds =>
    have hstreams : ({ { s with now := s.now + nanoseconds }.ping with
        phase := .serving tick } : Session).streamState = s.streamState :=
      ping_streamState { s with now := s.now + nanoseconds }
    exact (attend_sheds (hlive.of_streamState hstreams) (hunmanaged hserving hstreams)
      fun hover _ ↦ .inr hover).congr_left hstreams
  | notified hlink hread =>
    exact hends (.routeNotification hlive fun handle hkilled hretired hhandle ↦
      .finished rfl hread hlink hkilled hretired hhandle)
  | answered _ _ => exact .of_streamState hlive (RequestsOnly.routeReply s _ _).streamState
  | lost hserving => exact lose_sheds hlive (hunmanaged hserving rfl) fun hover _ ↦ .inr hover
  | lostAgain _ => exact loseAgain_sheds hlive fun hover _ ↦ .inr hover
  | dialed _ _ => exact .of_streamState hlive rfl
  | refused _ _ => exact retryLater_sheds hlive fun hover _ ↦ .inr hover
  | linked hphase =>
    exact hproceeds (.linked hphase) (restore_pass _ _ (hlive.of_streamState rfl))
  | @restored frame n response restoration hphase hexpected hread =>
    exact hproceeds (.restored hphase hexpected hread)
      (answered_pass s response hlive n.toNat restoration)
  | @ended event u heq _ _ reason =>
    have hstreams : u.streamState = s.streamState := by
      rw [heq]
      rfl
    exact (shutdown_sheds (hlive.of_streamState hstreams) reason
      fun _ ↦ .inr (shutdown_isOver u reason)).congr_left hstreams
  | @stopped event u heq _ _ =>
    have hstreams : u.streamState = s.streamState := by
      rw [heq]
      rfl
    exact .of_streamState hlive ((stop_aside u).streamState.trans hstreams)

end Steps

/-! ### What ends a stream closes it -/

section Closes

variable {s v : Session} {event : Event} {handle : Nat}

theorem Steady.step_kill (hs : s.Steady) (hopen : s.isOpen) (ticket : Ticket) :
    s.step (.command (.kill ticket handle)) = s.obey (.kill ticket handle) := by
  have hquiescent : (s.obey (.kill ticket handle)).Quiescent :=
    obey_quiescent hs.quiescent (by simp) (by simp)
  simp only [Session.step, if_pos hopen]
  exact hquiescent.settle_eq

theorem Steady.receive_of_linked (hs : s.Steady) (hlink : s.link ≠ .none) (frame : Octets) :
    s.step (.frame frame) = s.receive frame := by
  have hunlinked (hphase : s.phase = .unopened ∨ s.phase = .opening ∨
      (∃ wake, s.phase = .backingOff wake) ∨ s.phase = .dialing ∨ s.phase = .settled) : False :=
    hlink (hs.quiescent.unlinked hphase).link
  cases hphase : s.phase with
  | serving tick => simp only [Session.step, hphase]
  | restoring restoration => simp only [Session.step, hphase]
  | unopened => exact (hunlinked (.inl hphase)).elim
  | opening => exact (hunlinked (.inr (.inl hphase))).elim
  | backingOff wake => exact (hunlinked (.inr (.inr (.inl ⟨wake, hphase⟩)))).elim
  | dialing => exact (hunlinked (.inr (.inr (.inr (.inl hphase))))).elim
  | settled => exact (hunlinked (.inr (.inr (.inr (.inr hphase))))).elim
  | stopped | halted =>
    have hended := hs.quiescent
    rw [Quiescent, hphase] at hended
    exact absurd hended.1 hlink

theorem Steady.step_notification (hs : s.Steady) (hlink : s.link ≠ .none) {frame : Octets}
    {message : LiveMessage} (hread : read frame = .ok (.notification message)) :
    s.step (.frame frame) = s.routeNotification message := by
  have hstreams := StreamsOnly.routeNotification s message
  have hquiescent : (s.routeNotification message).Quiescent :=
    hs.quiescent.congr hstreams.controlState (inflight_eq_of_requestState hstreams.requestState)
  rw [hs.receive_of_linked hlink, receive, hread]
  exact hquiescent.settle_eq

theorem Steady.step_restored (hs : s.Steady) {frame : Octets} {n : UInt64} {response : Response}
    {restoration : Restoration} (hphase : s.phase = .restoring restoration)
    (hexpected : s.Expects n) (hread : read frame = .ok (.reply n response)) :
    s.step (.frame frame) = (s.routeReply n.toNat response).attendRestoration
      { restoration with answer := some response } := by
  have hanswered := hs.accounted.routeReply_restoring hexpected hphase response
  simp only [Session.step, hphase, receive, hread, route, settle, hanswered]

/-- The stream that is found for a query which the server has ended is not open any more. -/
theorem routeNotification_killed {message : LiveMessage} (hkilled : message.action = .killed)
    (hretired : message.id ∉ s.retired) (hhandle : s.handleFor? message.id = some handle) :
    handle ∉ (s.routeNotification message).subscriptions.keys := by
  rw [routeNotification_of_killed hkilled hretired, endQuery, handleFor?_announce, hhandle]
  simp only [closeStream_subscriptions, Table.keys_erase, List.mem_filter, ne_eq,
    not_true_eq_false, decide_false, Bool.false_eq_true, and_false, not_false_eq_true]

/-- A stream whose query is not started again is not open when the session goes on. -/
theorem Proceeds.closes (h : Proceeds s event v) (hs : s.Steady) {reason : CloseReason}
    (hends : Ends s event handle reason) : handle ∉ v.subscriptions.keys := by
  cases h with
  | linked hphase =>
    cases hends with
    | killed hevent => cases hevent
    | finished hevent _ _ _ _ _ => cases hevent
    | unmanaged _ _ hstatus _ =>
      have hreconnecting := hs.coherent.reconnecting (.inr (.inl hphase))
      cases hreconnecting.status.symm.trans hstatus
    | refused hevent _ _ _ _ _ => cases hevent
  | @restored frame n response restoration hphase hexpected hread =>
    cases hends with
    | killed hevent => cases hevent
    | unmanaged _ _ hstatus _ =>
      have hreconnecting := hs.coherent.reconnecting (.inr (.inr ⟨_, hphase⟩))
      cases hreconnecting.status.symm.trans hstatus
    | finished hevent hnotification _ _ _ _ =>
      cases hevent
      cases hread.symm.trans hnotification
    | refused hevent hother _ hother' hawaited hresponse =>
      cases hevent
      cases hread.symm.trans hother
      cases hphase.symm.trans hother'
      have hconcludes := concludes (s.routeReply n.toNat response) response restoration.awaited
      generalize (s.routeReply n.toNat response).conclude response restoration.awaited = v at *
      rw [hawaited] at hconcludes
      cases hconcludes with
      | closes _ =>
        rw [closeStream_subscriptions]
        simp [Table.keys_erase]
      | rebinds hresult hid => exact absurd hid (hresponse _ _ hresult)

/-- What ends a stream closes it. -/
theorem Ends.closes (hs : s.Steady) (hopen : handle ∈ s.subscriptions.keys) {reason : CloseReason}
    (h : Ends s event handle reason) : handle ∉ (s.step event).subscriptions.keys := by
  have hbelow := hs.liveTable.below handle hopen
  cases h with
  | @killed ticket hevent htakes =>
    subst hevent
    rw [hs.step_kill htakes]
    have hclosed : (s.obey (.kill ticket handle)).subscriptions = s.subscriptions.erase handle :=
      closeStream_subscriptions s .killed handle
    simp [hclosed, Table.keys_erase]
  | finished hevent hread hlink hkilled hretired hhandle =>
    subst hevent
    rw [hs.step_notification hlink hread]
    exact routeNotification_killed hkilled hretired hhandle
  | unmanaged hget hquery hstatus hlost =>
    intro hkept
    obtain ⟨subscription, hget'⟩ := Table.exists_get?_of_mem_keys hkept
    have hstep := (hs.step event).coherent
    obtain ⟨query, hknown⟩ :=
      (hstep.isReconnecting hlost).managed handle subscription hget'
    obtain ⟨-, old, hold, hsame⟩ :=
      ((hs.turn event).sheds hs rfl).kept handle subscription hget' hbelow
    cases hget.symm.trans hold
    cases hquery.symm.trans (hsame.trans hknown)
  | @refused frame n response restoration hevent hread hexpected hphase hawaited hresponse =>
    subst hevent
    have hproceeds := Proceeds.restored hphase hexpected hread
    have hclosed := hproceeds.closes hs (.refused rfl hread hexpected hphase hawaited hresponse)
    have hpass : Sheds (fun _ _ ↦ True) _ _ :=
      (answered_pass s response hs.liveTable n.toNat restoration).sheds
        (hproceeds.liveTable hs.liveTable) (hproceeds.isReconnecting hs.coherent).managed
        (fun _ _ ↦ trivial) fun _ _ ↦ trivial
    rw [hs.step_restored hphase hexpected hread]
    exact fun hkept ↦ hclosed (hpass.mem_keys hkept
      (Nat.lt_of_lt_of_le hbelow (hproceeds.sheds hs.liveTable).nextHandle))

end Closes

/-! ### Runs -/

/-- No stream that is open has got a closing event. -/
def Unclosed (s : Session) : Prop :=
  ∀ handle ∈ s.subscriptions.keys, s.closings handle = []

theorem Unclosed.sheds {why : Nat → CloseReason → Prop} {s t : Session} (h : s.Unclosed)
    (hsheds : Sheds why s t) : t.Unclosed := by
  intro handle hhandle
  by_cases hold : handle < s.nextHandle
  · obtain ⟨subscription, hget⟩ := Table.exists_get?_of_mem_keys hhandle
    rw [(hsheds.kept handle subscription hget hold).1]
    exact h handle (hsheds.mem_keys hhandle hold)
  · exact hsheds.opened handle hhandle (Nat.le_of_not_lt hold)

section Runs

variable {s : Session}

theorem isOver_run (hs : s.Steady) (hover : s.IsOver) (events : List Event) :
    (s.run events).IsOver := by
  induction events generalizing s with
  | nil => exact hover
  | cons event rest ih => exact ih (hs.step event) ((hs.turn event).isOver hs.quiescent hover)

/-- A step that does not end the session closes streams for what makes them be closed. -/
theorem Steady.sheds (hs : s.Steady) (event : Event) (hgoes : ¬ (s.step event).IsOver) :
    Sheds (ClosesFor s event) s (s.step event) :=
  ((hs.turn event).sheds hs rfl).mono fun _ _ h ↦ h.resolve_right hgoes

end Runs

end Session

end Wireline
