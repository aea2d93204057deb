import Wireline.Proofs.Session.Settling

/-!
# What one event does

`step_cases` takes a step apart: first comes what enters with the event (`Enters`), an answer, a
notification, a new stream or the new id of one, and then the session settles without anything new.
A run is a chain of such steps, and between two of them the session is quiescent (`run_quiescent`).
-/

set_option autoImplicit false
set_option relaxedAutoImplicit false

namespace Wireline

namespace Session

/-! ### What enters with an event -/

/-- In the state `s` the frame of an event answers the restart of the query of a stream, and gives
the id under which the query runs now. -/
def Restarts (s : Session) (event : Event) (handle : Nat) (id : Uuid) : Prop :=
  ∃ frame n result restoration, event = .frame frame ∧
    read frame = .ok (.reply n (.ok result)) ∧ (n.toNat, .restoration) ∈ s.awaited ∧
    s.phase = .restoring restoration ∧ restoration.awaited = .stream handle ∧
    Uuid.ofValue result = .ok id

/-- What enters with an event that comes in the state `s`, in the state `t` that it is taken in. -/
def Enters (s : Session) (event : Event) (t : Session) : Action → Prop
  | .answer id response => t = s ∧ ∃ frame n, event = .frame frame ∧
      read frame = .ok (.reply n response) ∧ n.toNat = id
  | .notify message => t = s ∧ ∃ frame, event = .frame frame ∧
      read frame = .ok (.notification message)
  | .register id query => t = s ∧ ∃ ticket, event = .command (.subscribe ticket id query)
  | .rebind handle id => t.streamState = s.streamState ∧ s.Restarts event handle id
  | _ => False

/-- What may happen in the step that an event causes in the state `s`. -/
def Permits (s : Session) (event : Event) (t : Session) (action : Action) : Prop :=
  Enters s event t action ∨ FollowUp (s.link ≠ .none) (s.step event) t action

/-! ### Between events -/

theorem Unlinked.congr {s t : Session} (h : s.Unlinked)
    (hcontrol : t.controlState = s.controlState) (hinflight : t.inflight = s.inflight) :
    t.Unlinked where
  link := (link_eq_of_controlState hcontrol).trans h.link
  inflight := hinflight.trans h.inflight
  closer := (closer_eq_of_controlState hcontrol).trans h.closer

theorem Linked.congr {s t : Session} (h : s.Linked) (hcontrol : t.controlState = s.controlState) :
    t.Linked where
  link := by
    rw [link_eq_of_controlState hcontrol]
    exact h.link
  isBroken := (isBroken_eq_of_controlState hcontrol).trans h.isBroken
  closer := (closer_eq_of_controlState hcontrol).trans h.closer

theorem Quiescent.congr {s t : Session} (h : s.Quiescent)
    (hcontrol : t.controlState = s.controlState) (hinflight : t.inflight = s.inflight) :
    t.Quiescent := by
  have hphase := phase_eq_of_controlState hcontrol
  unfold Quiescent at h ⊢
  cases hs : s.phase with
  | serving tick =>
    simp only [hphase, hs] at h ⊢
    exact h.congr hcontrol
  | restoring restoration =>
    simp only [hphase, hs] at h ⊢
    exact ⟨h.1.congr hcontrol, h.2⟩
  | stopped | halted =>
    simp only [hphase, hs] at h ⊢
    exact ⟨(link_eq_of_controlState hcontrol).trans h.1, hinflight.trans h.2⟩
  | _ =>
    simp only [hphase, hs] at h ⊢
    exact h.congr hcontrol hinflight

theorem Quiescent.linked_of_serving {s : Session} {tick : Nat} (h : s.Quiescent)
    (hphase : s.phase = .serving tick) : s.Linked := by
  rw [Quiescent, hphase] at h
  exact h

theorem Quiescent.linked_of_restoring {s : Session} {restoration : Restoration} (h : s.Quiescent)
    (hphase : s.phase = .restoring restoration) : s.Linked ∧ restoration.answer = none := by
  rw [Quiescent, hphase] at h
  exact h

theorem Quiescent.unlinked {s : Session} (h : s.Quiescent)
    (hphase : s.phase = .unopened ∨ s.phase = .opening ∨ (∃ wake, s.phase = .backingOff wake) ∨
      s.phase = .dialing ∨ s.phase = .settled) : s.Unlinked := by
  rcases hphase with hs | hs | ⟨wake, hs⟩ | hs | hs <;>
    · rw [Quiescent, hs] at h
      exact h

/-- Without an answer to a call of its own, a session that is looked after does not restart
queries. -/
theorem settle_settles_of_unanswered {lossy : Prop} {s : Session} (h : Unsettled lossy s)
    (hanswer : ∀ restoration, s.phase = .restoring restoration → restoration.answer = none) :
    Settles lossy s s.settle := by
  rcases settle_settles h with hsettles | ⟨restoration, handle, id, hphase, hrestarts, -⟩
  · exact hsettles
  · obtain ⟨-, result, hresult, -⟩ := hrestarts
    rw [hanswer restoration hphase] at hresult
    cases hresult

/-- What a quiescent session has become needs to be looked after if phase and link are the same. -/
theorem Quiescent.unsettled {s t : Session} (h : s.Quiescent) (hopen : s.isOpen)
    (hphase : t.phase = s.phase) (hlink : t.link = s.link)
    (hinflight : s.link = .none → t.inflight = s.inflight) :
    Unsettled (s.link ≠ .none) t ∧
      ∀ restoration, t.phase = .restoring restoration → restoration.answer = none := by
  have hunlinked (hs : s.Unlinked) : t.link = .none ∧ t.inflight = .empty :=
    ⟨hlink.trans hs.link, (hinflight hs.link).trans hs.inflight⟩
  have hsound (hs : s.Linked) : Sound (s.link ≠ .none) t :=
    ⟨hlink ▸ hs.link, .inl hs.link⟩
  unfold Quiescent at h
  unfold Unsettled
  cases hs : s.phase with
  | unopened => simp [isOpen, hs] at hopen
  | opening => simp [isOpen, hs] at hopen
  | stopped => simp [isOpen, hs] at hopen
  | halted => simp [isOpen, hs] at hopen
  | serving tick =>
    simp only [hphase, hs] at h ⊢
    exact ⟨hsound h, by simp⟩
  | restoring restoration =>
    simp only [hphase, hs] at h ⊢
    refine ⟨⟨hsound h.1, fun hanswer ↦ absurd h.2 hanswer⟩, ?_⟩
    intro other hother
    cases hother
    exact h.2
  | _ =>
    simp only [hphase, hs] at h ⊢
    exact ⟨hunlinked h, by simp⟩

/-! ### Commands -/

/-- What a command does before the session is looked after. -/
theorem obey_cases {lossy : Prop} {s final : Session} {command : Command}
    (h : Settles lossy (s.obey command) final) :
    ∃ t, Path (Enters s (.command command)) s t ∧ Settles lossy t final := by
  cases command with
  | request ticket request =>
    refine ⟨s, .refl, ?_⟩
    simp only [obey, Session.request] at h
    split at h
    · exact h.afterDispatchCall
    · exact h.afterAside (.silent rfl rfl rfl)
    · exact h.afterAside (.silent rfl rfl rfl)
    · exact h.afterAside (.silent rfl rfl rfl)
    · exact h.afterAside (.tell _ _ _)
  | subscribe ticket id query =>
    simp only [obey, subscribe] at h
    split at h
    · have henters : Enters s (.command (.subscribe ticket id query)) s (.register id query) :=
        ⟨rfl, ticket, rfl⟩
      exact ⟨_, .single henters (.register id query), h.afterAside (.tell _ _ _)⟩
    · exact ⟨s, .refl, h.afterAside (.tell _ _ _)⟩
  | kill ticket handle =>
    exact ⟨s, .refl, (h.afterAside (.tell _ _ _)).afterClose⟩
  | standing ticket => exact ⟨s, .refl, h.afterAside (.tell _ _ _)⟩
  | close ticket => exact ⟨s, .refl, h.afterAside (.silent rfl rfl rfl)⟩

theorem dispatchCall_phase (s : Session) (ticket : Ticket) (request : Request) :
    (s.dispatchCall ticket request).phase = s.phase := by
  rcases dispatchCall_cases s ticket request with h | ⟨error, h⟩
  · rw [h, dispatch_phase]
  · rw [h]
    exact dispatch_phase s _ request

theorem dispatchCall_link (s : Session) (ticket : Ticket) (request : Request) :
    (s.dispatchCall ticket request).link = s.link := by
  have hdispatched := (RequestsOnly.dispatch s (.caller ticket) request).link
  rcases dispatchCall_cases s ticket request with h | ⟨error, h⟩
  · rw [h, hdispatched]
  · rw [h]
    exact hdispatched

/-- A command sends nothing unless the session serves its callers, and leaves phase and link. -/
theorem obey_keeps (s : Session) (command : Command) :
    (s.obey command).phase = s.phase ∧ (s.obey command).link = s.link ∧
      ((∀ tick, s.phase ≠ .serving tick) → (s.obey command).inflight = s.inflight) := by
  cases command with
  | request ticket request =>
    simp only [obey, Session.request]
    split
    · next tick hphase =>
      exact ⟨dispatchCall_phase s ticket request, dispatchCall_link s ticket request,
        fun h ↦ absurd hphase (h tick)⟩
    all_goals exact ⟨rfl, rfl, fun _ ↦ rfl⟩
  | subscribe ticket id query =>
    simp only [obey, subscribe]
    split <;> exact ⟨rfl, rfl, fun _ ↦ rfl⟩
  | kill ticket handle =>
    have hstreams := StreamsOnly.closeStream s .killed handle
    exact ⟨phase_eq_of_controlState hstreams.controlState,
      link_eq_of_controlState hstreams.controlState,
      fun _ ↦ inflight_eq_of_requestState hstreams.requestState⟩
  | standing ticket => exact ⟨rfl, rfl, fun _ ↦ rfl⟩
  | close ticket => exact ⟨rfl, rfl, fun _ ↦ rfl⟩

theorem Quiescent.not_serving {s : Session} (h : s.Quiescent) (hlink : s.link = .none)
    (tick : Nat) :
    s.phase ≠ .serving tick := by
  exact fun hphase ↦ (h.linked_of_serving hphase).link hlink

theorem command_cases {s : Session} (h : s.Quiescent) (command : Command) :
    ∃ t, Path (Enters s (.command command)) s t ∧
      Settles (s.link ≠ .none) t (s.step (.command command)) := by
  simp only [step]
  split
  · next hopen =>
    obtain ⟨hphase, hlink, hinflight⟩ := obey_keeps s command
    obtain ⟨hunsettled, hanswer⟩ :=
      h.unsettled hopen hphase hlink fun hs ↦ hinflight (h.not_serving hs)
    exact obey_cases (settle_settles_of_unanswered hunsettled hanswer)
  · exact ⟨s, .refl, .stay h⟩

/-! ### Frames -/

/-- The answer to a request leaves a session that has a link to be looked after. -/
theorem routeReply_unsettled {s : Session} (hlinked : s.Linked)
    (hphase : (∃ tick, s.phase = .serving tick) ∨ ∃ restoration, s.phase = .restoring restoration)
    (id : Nat) (response : Response) :
    Unsettled (s.link ≠ .none) (s.routeReply id response) := by
  have hlink := (RequestsOnly.routeReply s id response).link
  have hsound : Sound (s.link ≠ .none) (s.routeReply id response) :=
    ⟨hlink ▸ hlinked.link, .inl hlinked.link⟩
  have hcloser := (RequestsOnly.routeReply s id response).closer.trans hlinked.closer
  rcases routeReply_phase s id response with hsame | ⟨-, restoration, -, hnoted⟩
  · rcases hphase with ⟨tick, hs⟩ | ⟨restoration, hs⟩
    · rw [Unsettled, hsame, hs]
      exact hsound
    · rw [Unsettled, hsame, hs]
      exact ⟨hsound, fun _ ↦ hcloser⟩
  · rw [Unsettled, hnoted]
    exact ⟨hsound, fun _ ↦ hcloser⟩

theorem receive_cases {s : Session} (h : s.Quiescent)
    (hphase : (∃ tick, s.phase = .serving tick) ∨ ∃ restoration, s.phase = .restoring restoration)
    (frame : Octets) :
    ∃ t, Path (Enters s (.frame frame)) s t ∧ Settles (s.link ≠ .none) t (s.receive frame) := by
  have hlinked : s.Linked := by
    rcases hphase with ⟨tick, hs⟩ | ⟨restoration, hs⟩
    · exact h.linked_of_serving hs
    · exact (h.linked_of_restoring hs).1
  unfold receive
  split
  · next inbound hread =>
    cases inbound with
    | notification message =>
      have henters : Enters s (.frame frame) s (.notify message) := ⟨rfl, frame, rfl, hread⟩
      refine ⟨_, .single henters (.notify message), ?_⟩
      have hstreams := StreamsOnly.routeNotification s message
      have hopen : s.isOpen := by
        rcases hphase with ⟨tick, hs⟩ | ⟨restoration, hs⟩ <;> simp [isOpen, hs]
      obtain ⟨hunsettled, hanswer⟩ :=
        h.unsettled hopen (phase_eq_of_controlState hstreams.controlState)
          (link_eq_of_controlState hstreams.controlState)
          fun _ ↦ inflight_eq_of_requestState hstreams.requestState
      exact settle_settles_of_unanswered hunsettled hanswer
    | reply n response =>
      have henters : Enters s (.frame frame) s (.answer n.toNat response) :=
        ⟨rfl, frame, n, rfl, hread, rfl⟩
      have hanswered := Path.single henters (.answer n.toNat response)
      rcases settle_settles (routeReply_unsettled hlinked hphase n.toNat response) with
        hsettles | ⟨restoration, handle, id, hrestoring, ⟨hawaited, result, hresult, hid⟩, hsettles⟩
      · exact ⟨_, hanswered, hsettles⟩
      · refine ⟨_, hanswered.tail ?_ (.rebind handle id), hsettles⟩
        refine ⟨(RequestsOnly.routeReply s n.toNat response).streamState, ?_⟩
        rcases routeReply_phase s n.toNat response with hsame | ⟨hmem, earlier, hearlier, hnoted⟩
        · rw [hsame] at hrestoring
          rw [(h.linked_of_restoring hrestoring).2] at hresult
          cases hresult
        · rw [hnoted] at hrestoring
          cases hrestoring
          cases hresult
          exact ⟨frame, n, result, earlier, rfl, hread, hmem, hearlier, hawaited, hid⟩
  · exact ⟨s, .refl, shutdown_settles (.inl hlinked.closer)⟩

/-! ### Links and time -/

theorem start_settles {lossy : Prop} {s : Session} (h : s.Unlinked) :
    Settles lossy s s.start := by
  have hcontrol := setStatus_controlState s .connecting
  have hphase : Aside (s.setStatus .connecting)
      { s.setStatus .connecting with phase := .opening } := .silent rfl rfl rfl
  refine Settles.afterAside (.stay ?_) (((Aside.setStatus s _).trans hphase).trans (.push _ rfl))
  exact {
    link := (link_eq_of_controlState hcontrol).trans h.link
    inflight := (setStatus_inflight s _).trans h.inflight
    closer := (closer_eq_of_controlState hcontrol).trans h.closer }

theorem failToOpen_settles {lossy : Prop} {s : Session} (h : s.Unlinked)
    (error : TransportError) : Settles lossy s (s.failToOpen error) := by
  have hcontrol := setStatus_controlState s .error
  have hphase : Aside (s.setStatus .error) { s.setStatus .error with phase := .stopped } :=
    .silent rfl rfl rfl
  refine Settles.afterAside (.stay ?_) (((Aside.setStatus s _).trans hphase).trans (.push _ rfl))
  exact ⟨(link_eq_of_controlState hcontrol).trans h.link,
    (setStatus_inflight s _).trans h.inflight⟩

/-- Serving begins over a whole link, and then the session says so. -/
theorem beginServing_eq {s : Session} (h : s.closer = none) :
    ∃ t, Aside s t ∧ t.Quiescent ∧ s.beginServing = (t.setStatus .connected).push .opened := by
  refine ⟨{ s with
    link := .whole
    isBroken := false
    standing := { s.standing with url := some s.url }
    backoff := s.backoff.reset s.now
    phase := .serving (s.now + s.keepAlive) }, .silent rfl rfl rfl, ?_, rfl⟩
  exact ⟨by simp, rfl, h⟩

theorem beginServing_settles {lossy : Prop} {s : Session} (h : s.closer = none) :
    Settles lossy s s.beginServing := by
  obtain ⟨t, hbegun, hquiescent, hsaid⟩ := beginServing_eq h
  rw [hsaid]
  refine Settles.afterAside (.stay ?_)
    ((hbegun.trans (.setStatus _ .connected)).trans (.push _ rfl))
  exact hquiescent.congr (setStatus_controlState t .connected) (setStatus_inflight t .connected)

theorem attach_restore_settles {lossy : Prop} {s : Session} (h : s.closer = none)
    (requests : List Request) : Settles lossy s (s.attach.restore requests) := by
  have hsound : Sound lossy s.attach := ⟨by simp [attach], .inr ⟨rfl, rfl⟩⟩
  exact (restore_settles requests s.attach hsound h).afterAside (.silent rfl rfl rfl)

/-- A link that takes no more frames is still a link. -/
theorem severed_settles {lossy : Prop} {s : Session} (h : s.Quiescent) (hlink : s.link ≠ .none) :
    Settles lossy s { s with link := .severed } := by
  refine Settles.afterAside (.stay ?_) (.silent rfl rfl rfl)
  unfold Quiescent at h ⊢
  cases hs : s.phase with
  | serving tick =>
    simp only [hs] at h ⊢
    exact ⟨by simp, h.isBroken, h.closer⟩
  | restoring restoration =>
    simp only [hs] at h ⊢
    exact ⟨⟨by simp, h.1.isBroken, h.1.closer⟩, h.2⟩
  | stopped | halted =>
    simp only [hs] at h
    exact absurd h.1 hlink
  | _ =>
    simp only [hs] at h
    exact absurd h.link hlink

/-- A keep-alive is sent as a request, and the session notes its id. -/
theorem ping_cases (s : Session) :
    s.ping = s ∨
    Aside (s.dispatch .keepAlive ⟨"ping", []⟩).1 s.ping ∧
      s.ping.controlState = (s.dispatch .keepAlive ⟨"ping", []⟩).1.controlState := by
  unfold ping
  split
  · exact .inl rfl
  · refine .inr ?_
    split
    · next h =>
      rw [h]
      exact ⟨.silent rfl rfl rfl, rfl⟩
    · next h =>
      rw [h]
      exact ⟨.refl _, rfl⟩

theorem Settles.afterPing {lossy : Prop} {s final : Session} (h : Settles lossy s.ping final) :
    Settles lossy s final := by
  rcases ping_cases s with hping | ⟨haside, -⟩
  · rwa [hping] at h
  · exact (h.afterAside haside).afterDispatch _ _

theorem Sound.ping {lossy : Prop} {s : Session} (h : Sound lossy s) : Sound lossy s.ping := by
  rcases ping_cases s with hping | ⟨-, hcontrol⟩
  · rwa [hping]
  · exact (h.dispatch _ _).of_controlState hcontrol

theorem wake_settles {s : Session} (h : s.Quiescent) : Settles (s.link ≠ .none) s s.wake := by
  unfold wake
  split
  · next tick hphase =>
    have hlinked := h.linked_of_serving hphase
    have hsound : Sound (s.link ≠ .none) s := ⟨hlinked.link, .inl hlinked.link⟩
    have hserving : Aside s.ping { s.ping with phase := .serving (s.nextTick tick) } :=
      .silent rfl rfl rfl
    refine (Settles.afterAside ?_ hserving).afterPing
    exact attend_settles rfl ⟨hsound.ping.link, hsound.ping.unhurt⟩
  · next wake hphase =>
    have hunlinked := h.unlinked (.inr (.inr (.inl ⟨wake, hphase⟩)))
    have hdialing : Aside s { s with phase := .dialing } := .silent rfl rfl rfl
    refine Settles.afterAside (.stay ?_) (hdialing.trans (.push _ rfl))
    exact ⟨hunlinked.link, hunlinked.inflight, hunlinked.closer⟩
  · exact .stay h

/-! ### Events -/

/-- A step takes in what enters with its event, and then the session settles. -/
theorem step_cases {s : Session} (h : s.Quiescent) (event : Event) :
    ∃ t, Path (Enters s event) s t ∧ Settles (s.link ≠ .none) t (s.step event) := by
  cases event with
  | start =>
    refine ⟨s, .refl, ?_⟩
    simp only [step]
    split
    · next hphase => exact start_settles (h.unlinked (.inl hphase))
    · exact .stay h
  | command command => exact command_cases h command
  | abandoned =>
    refine ⟨s, .refl, ?_⟩
    simp only [step]
    split
    · exact shutdown_settles (.inr rfl)
    · exact shutdown_settles (.inr rfl)
    · exact shutdown_settles (.inr rfl)
    · exact shutdown_settles (.inr rfl)
    · next hphase =>
      have hunlinked := h.unlinked (.inr (.inr (.inr (.inr hphase))))
      exact Settles.afterAside (.stay (stop_quiescent hunlinked.link hunlinked.inflight))
        (stop_aside s)
    · exact .stay h
  | linked =>
    refine ⟨s, .refl, ?_⟩
    simp only [step]
    split
    · next hphase => exact beginServing_settles (h.unlinked (.inr (.inl hphase))).closer
    · next hphase =>
      exact attach_restore_settles (h.unlinked (.inr (.inr (.inr (.inl hphase))))).closer _
    · exact .stay h
  | refused error =>
    refine ⟨s, .refl, ?_⟩
    simp only [step]
    split
    · next hphase => exact failToOpen_settles (h.unlinked (.inr (.inl hphase))) error
    · next hphase => exact retryLater_settles (h.unlinked (.inr (.inr (.inr (.inl hphase)))))
    · exact .stay h
  | frame frame =>
    simp only [step]
    split
    · next tick hphase => exact receive_cases h (.inl ⟨tick, hphase⟩) frame
    · next restoration hphase => exact receive_cases h (.inr ⟨restoration, hphase⟩) frame
    · exact ⟨s, .refl, .stay h⟩
  | severed =>
    refine ⟨s, .refl, ?_⟩
    simp only [step]
    split
    · exact .stay h
    · next hlink => exact severed_settles h hlink
  | lost =>
    refine ⟨s, .refl, ?_⟩
    simp only [step]
    split
    · next hphase =>
      have hlinked := h.linked_of_serving hphase
      exact lose_settles hlinked.link hlinked.closer
    · next hphase =>
      have hlinked := (h.linked_of_restoring hphase).1
      exact loseAgain_settles hlinked.link hlinked.closer
    · exact .stay h
  | elapse nanoseconds =>
    refine ⟨s, .refl, ?_⟩
    simp only [step]
    have hlater : Quiescent { s with now := s.now + nanoseconds } := h.congr rfl rfl
    split
    · exact (wake_settles hlater).afterAside (.silent rfl rfl rfl)
    · exact Settles.afterAside (.stay hlater) (.silent rfl rfl rfl)
  | altered circumstances =>
    have haltered : Quiescent { s with circumstances } := h.congr rfl rfl
    exact ⟨s, .refl, Settles.afterAside (.stay haltered) (.silent rfl rfl rfl)⟩

theorem step_quiescent {s : Session} (h : s.Quiescent) (event : Event) :
    (s.step event).Quiescent := by
  obtain ⟨t, -, hsettles⟩ := step_cases h event
  exact hsettles.quiescent

theorem step_path {s : Session} (h : s.Quiescent) (event : Event) :
    Path (Permits s event) s (s.step event) := by
  obtain ⟨t, hentered, hsettles⟩ := step_cases h event
  exact (hentered.mono fun _ _ ↦ .inl).trans (hsettles.path.mono fun _ _ ↦ .inr)

theorem ofConfig_quiescent (url : String) (config : ClientConfig) (payloadLimit : Option Nat) :
    (ofConfig url config payloadLimit).Quiescent :=
  ⟨rfl, rfl, rfl⟩

/-- What every permitted move keeps holds after every run if it holds at the start. -/
theorem run_invariant (holds : Session → Prop)
    (hmove : ∀ s event t action u, holds t → Permits s event t action → Move t action u → holds u)
    (events : List Event) :
    ∀ s : Session, s.Quiescent → holds s → (s.run events).Quiescent ∧ holds (s.run events) := by
  induction events with
  | nil => exact fun s hs h ↦ ⟨hs, h⟩
  | cons event rest ih =>
    intro s hs h
    refine ih (s.step event) (step_quiescent hs event) ?_
    exact (step_path hs event).invariant holds
      (fun t action u hpermits hmoves ht ↦ hmove s event t action u ht hpermits hmoves) h

theorem run_quiescent {s : Session} (h : s.Quiescent) (events : List Event) :
    (s.run events).Quiescent :=
  (run_invariant (fun _ ↦ True) (fun _ _ _ _ _ _ _ _ ↦ trivial) events s h trivial).1

end Session

end Wireline
