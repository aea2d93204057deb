import Wireline.Proofs.Session.Coherence

/-!
# The course of a session

How a session gets from one phase to the next, what status it announces and when it asks for a link
depend on little of its state, which is its `Course`. Most of what a session does leaves the course
alone and is not seen in the `milestones` that it has passed (`Calm`). The rest is made up of a few
legs (`Course.Leg`), each with the milestones on it, and every turn takes a route of legs
(`Turn.travels`). What is to be shown of the status, of attempts to reconnect or of the times of
connections is shown for the legs.
-/

set_option autoImplicit false
set_option relaxedAutoImplicit false

namespace Wireline

namespace Session

/-! ### Courses -/

/-- What a session is about, without the particulars. -/
inductive Course.Stage
  | unopened
  | opening
  | serving
  | waiting
  | dialing
  | restoring
  | halted
  | finished
  deriving DecidableEq

/-- Whether the session has had a link, and is neither over nor broken down. -/
def Course.Stage.isUp : Course.Stage → Bool
  | .serving | .waiting | .dialing | .restoring => true
  | .unopened | .opening | .halted | .finished => false

def Phase.stage : Phase → Course.Stage
  | .unopened => .unopened
  | .opening => .opening
  | .serving _ => .serving
  | .backingOff _ => .waiting
  | .dialing => .dialing
  | .restoring _ => .restoring
  | .halted => .halted
  | .settled | .stopped => .finished

/-- What the status of a session and its attempts to reconnect depend on. -/
structure Course where
  stage : Course.Stage
  status : Status
  backoff : Backoff
  circumstances : Circumstances
  now : Nat

def course (s : Session) : Course :=
  ⟨s.phase.stage, s.status, s.backoff, s.circumstances, s.now⟩

/-- What is seen of the course of a session. -/
inductive Milestone
  | status (status : Status)
  | dial
  deriving DecidableEq

def Effect.milestone? : Effect → Option Milestone
  | .status announced => some (.status announced)
  | .dial _ => some .dial
  | _ => none

/-- The milestones that a session has passed, the first one first. -/
def milestones (s : Session) : List Milestone :=
  s.outbox.filterMap Effect.milestone?

/-- What is announced when a status is set. -/
def announcement (old new : Status) : List Milestone :=
  if old = new then [] else [.status new]

theorem announcement_cases (old new : Status) :
    announcement old new = [] ∨ announcement old new = [.status new] := by
  unfold announcement
  split
  · exact .inl rfl
  · exact .inr rfl

namespace Course

/-- What becomes of a session that is to make another attempt to reconnect. -/
inductive Retries (c : Course) : List Milestone → Course → Prop
  | permitted {backoff : Backoff} {delay : Span}
      (h : c.backoff.beginAttempt c.now c.circumstances.draw = (backoff, .ok (some delay))) :
      Retries c [] { c with stage := .waiting, backoff }
  | halted {backoff : Backoff}
      (h : c.backoff.beginAttempt c.now c.circumstances.draw = (backoff, .ok none)) :
      Retries c [] { c with stage := .halted, backoff }
  | exhausted {backoff : Backoff} {error : ClientError}
      (h : c.backoff.beginAttempt c.now c.circumstances.draw = (backoff, .error error)) :
      Retries c (announcement c.status .error)
        { c with stage := .finished, status := .error, backoff }

/-- One leg of the course of a session, with the milestones on it. -/
inductive Leg (c : Course) : List Milestone → Course → Prop
  | begun (hstage : c.stage = .unopened) :
      Leg c (announcement c.status .connecting ++ [.dial])
        { c with stage := .opening, status := .connecting }
  | failed (hstage : c.stage = .opening) :
      Leg c (announcement c.status .error) { c with stage := .finished, status := .error }
  | connected (hstage : c.stage = .opening ∨ c.stage = .dialing ∨ c.stage = .restoring) :
      Leg c (announcement c.status .connected)
        { c with stage := .serving, status := .connected, backoff := c.backoff.reset c.now }
  | lost {passed : List Milestone} {next : Course} (hstage : c.stage = .serving)
      (henabled : c.backoff.policy.enabled)
      (hretries : Retries { c with status := .reconnecting } passed next) :
      Leg c (announcement c.status .reconnecting ++ passed) next
  | lostAgain {passed : List Milestone} {next : Course}
      (hstage : c.stage = .dialing ∨ c.stage = .restoring) (hretries : Retries c passed next) :
      Leg c passed next
  | dialed (hstage : c.stage = .waiting) : Leg c [.dial] { c with stage := .dialing }
  | linked (hstage : c.stage = .dialing ∨ c.stage = .restoring) :
      Leg c [] { c with stage := .restoring }
  | ended (hstage : c.stage.isUp) (reason : DisconnectReason) :
      Leg c (announcement c.status (statusAfter reason))
        { c with stage := .finished, status := statusAfter reason }

/-- Legs one after the other. -/
inductive Route (c : Course) : List Milestone → Course → Prop
  | refl : Route c [] c
  | tail {first second : List Milestone} {middle last : Course} (hroute : Route c first middle)
      (hleg : Leg middle second last) : Route c (first ++ second) last

namespace Route

variable {c middle last : Course} {first second : List Milestone}

theorem single (h : Leg c first middle) : Route c first middle :=
  Route.refl.tail h

theorem trans (hfirst : Route c first middle) (hsecond : Route middle second last) :
    Route c (first ++ second) last := by
  induction hsecond with
  | refl => rwa [List.append_nil]
  | tail _ hleg ih =>
    rw [← List.append_assoc]
    exact ih.tail hleg

end Route

end Course

/-! ### What leaves the course alone -/

/-- The course of the second state is that of the first, and no milestone was passed. -/
structure Calm (s t : Session) : Prop where
  course : t.course = s.course
  quiet : Emits (fun effect ↦ effect.milestone? = none) s t

namespace Calm

variable {s t u : Session}

theorem milestones (h : Calm s t) : t.milestones = s.milestones :=
  h.quiet.filterMap_outbox fun _ heffect ↦ heffect

theorem stage (h : Calm s t) : t.phase.stage = s.phase.stage :=
  congrArg Course.stage h.course

theorem of_eq (hcourse : t.course = s.course) (houtbox : t.outbox = s.outbox) : Calm s t :=
  ⟨hcourse, .of_eq houtbox⟩

theorem refl (s : Session) : Calm s s :=
  of_eq rfl rfl

theorem trans (hst : Calm s t) (htu : Calm t u) : Calm s u :=
  ⟨htu.course.trans hst.course, hst.quiet.trans htu.quiet⟩

theorem foldl {α : Type} {f : Session → α → Session} (hf : ∀ s a, Calm s (f s a))
    (items : List α) (s : Session) : Calm s (items.foldl f s) :=
  foldl_related refl trans hf items s

theorem push (s : Session) {effect : Effect} (h : effect.milestone? = none) :
    Calm s (s.push effect) :=
  ⟨rfl, .push s h⟩

theorem tell (s : Session) (ticket : Ticket) (answer : Answer) : Calm s (s.tell ticket answer) :=
  push s rfl

theorem streamsOnly (h : StreamsOnly s t) : Calm s t :=
  of_eq (congrArg Session.course h :) h.outbox

theorem passed (h : Passed s t) : Calm s t :=
  of_eq (congrArg Session.course h :) h.outbox

theorem hangUp (s : Session) : Calm s s.hangUp := by
  unfold Session.hangUp
  split
  · exact refl s
  · have hgone : Calm s { s with link := .none } := of_eq rfl rfl
    exact hgone.trans (push _ rfl)

/-! #### Requests -/

/-- Assumes: what the session is about stays the same but for particulars. -/
theorem requestsOnly (h : RequestsOnly s t) (hstage : t.phase.stage = s.phase.stage)
    (hquiet : Emits (fun effect ↦ effect.milestone? = none) s t) : Calm s t := by
  have hcourse : t.course = ⟨t.phase.stage, s.status, s.backoff, s.circumstances, s.now⟩ :=
    (congrArg Session.course h :)
  exact ⟨by rw [hcourse, hstage, Session.course], hquiet⟩

theorem launch (s : Session) (origin : Origin) (request : Request) (frame : Octets) :
    Calm s (s.launch origin request frame) := by
  refine requestsOnly (.launch s origin request frame)
    (congrArg Phase.stage (launch_phase s origin request frame))
    ⟨_, launch_outbox s origin request frame, fun effect heffect ↦ ?_⟩
  split at heffect <;> simp only [List.mem_cons, List.not_mem_nil, or_false] at heffect
  · rcases heffect with rfl | rfl <;> rfl
  · rw [heffect]
    rfl

theorem dispatch (s : Session) (origin : Origin) (request : Request) :
    Calm s (s.dispatch origin request).1 := by
  rcases dispatch_cases s origin request with ⟨error, h⟩ | ⟨frame, h⟩
  · rw [h]
    exact of_eq rfl rfl
  · rw [h]
    exact launch s origin request frame

theorem dispatchCall (s : Session) (ticket : Ticket) (request : Request) :
    Calm s (s.dispatchCall ticket request) := by
  rcases dispatchCall_cases s ticket request with h | ⟨error, h⟩
  · rw [h]
    exact dispatch s _ request
  · rw [h]
    exact (dispatch s _ request).trans (tell _ _ _)

theorem deliver (id : Nat) (reply : Reply) (s : Session) (origin : Origin) :
    Calm s (deliver id reply s origin) := by
  have hsaid : Calm s (s.push (.replied id origin reply)) := push s rfl
  have hnoted (t : Session) (response : Response) : Calm t (t.setAnswer response) := by
    unfold setAnswer
    split
    · next hphase => exact of_eq (by simp only [Session.course, hphase, Phase.stage]) rfl
    · exact refl t
  unfold Session.deliver
  split
  · exact hsaid.trans (hnoted _ _)
  · exact hsaid

theorem emitReply (s : Session) (id : Nat) (reply : Reply) : Calm s (s.emitReply id reply) := by
  have hheard : Calm s { s with replies := (s.replies.emit id).1 } := of_eq rfl rfl
  exact hheard.trans (foldl (deliver id reply) _ _)

theorem routeReply (s : Session) (id : Nat) (response : Response) :
    Calm s (s.routeReply id response) := by
  unfold Session.routeReply
  split
  · exact refl s
  · next request _ =>
    refine Calm.trans ?_ (emitReply _ id _)
    exact of_eq rfl rfl

theorem replyToAll (s : Session) (reply : Reply) : Calm s (s.replyToAll reply) := by
  have hforgotten : Calm s { s with inflight := .empty } := of_eq rfl rfl
  exact hforgotten.trans (foldl (fun t id ↦ emitReply t id reply) _ _)

theorem refuseDeferred (s : Session) (error : ClientError) : Calm s (s.refuseDeferred error) := by
  have hforgotten : Calm s { s with deferred := [] } := of_eq rfl rfl
  exact hforgotten.trans (foldl (fun t (call : Ticket × Request) ↦ tell t call.1 _) _ _)

theorem ping (s : Session) : Calm s s.ping := by
  rcases ping_eq s with h | h | ⟨frame, h⟩
  · rw [h]
    exact refl s
  · rw [h]
    exact of_eq rfl rfl
  · rw [h]
    exact (launch s .keepAlive _ frame).trans (of_eq rfl rfl)

/-- To obey a command does not decide anything. -/
theorem obey (s : Session) (command : Command) : Calm s (s.obey command) := by
  cases command with
  | request ticket request =>
    simp only [Session.obey, Session.request]
    split
    · exact dispatchCall s ticket request
    · exact of_eq rfl rfl
    · exact of_eq rfl rfl
    · exact of_eq rfl rfl
    · exact tell s _ _
  | subscribe ticket id query =>
    simp only [Session.obey, Session.subscribe]
    split
    · exact (streamsOnly (.register s id query)).trans (tell _ _ _)
    · exact tell s _ _
  | kill ticket handle => exact (streamsOnly (.closeStream s .killed handle)).trans (tell _ _ _)
  | standing ticket => exact tell s _ _
  | close ticket => exact of_eq rfl rfl

end Calm

/-! ### Legs -/

theorem setStatus_course (s : Session) (status : Status) :
    (s.setStatus status).course = { s.course with status } ∧
      (s.setStatus status).milestones = s.milestones ++ announcement s.status status := by
  unfold setStatus announcement
  split
  · next hsame => exact ⟨by rw [← hsame]; rfl, (List.append_nil _).symm⟩
  · refine ⟨rfl, ?_⟩
    simp [milestones, push, Effect.milestone?]

/-- A state is left for good, and no milestone is passed. -/
theorem stop_course (s : Session) :
    s.stop.course = { s.course with stage := .finished } ∧ s.stop.milestones = s.milestones := by
  have hstopped (t : Session) : ({ t with phase := .stopped }.push .stopped).course =
      { t.course with stage := .finished } ∧
        ({ t with phase := .stopped }.push .stopped).milestones = t.milestones := by
    refine ⟨rfl, ?_⟩
    simp [milestones, push, Effect.milestone?]
  unfold stop
  split
  · next ticket _ =>
    have htold := (Calm.tell s ticket .closed)
    exact ⟨(hstopped _).1, (hstopped _).2.trans htold.milestones⟩
  · exact hstopped s

theorem Calm.ended (s : Session) (reason : DisconnectReason) : Calm s (s.ended reason) :=
  (((hangUp s).trans (replyToAll _ _)).trans (refuseDeferred _ _)).trans
    (streamsOnly (.closeStreams _ _ _))

theorem shutdown_course (s : Session) (reason : DisconnectReason) :
    (s.shutdown reason).course =
        { s.course with stage := .finished, status := statusAfter reason } ∧
      (s.shutdown reason).milestones =
        s.milestones ++ announcement s.status (statusAfter reason) := by
  have hended := Calm.ended s reason
  have hstatus : (s.ended reason).status = s.status := congrArg Course.status hended.course
  rw [shutdown_eq, ← hended.course, ← hended.milestones, ← hstatus]
  generalize s.ended reason = t
  split
  · obtain ⟨hcourse, hmilestones⟩ := setStatus_course { t with standing := {} } (statusAfter reason)
    obtain ⟨hlast, hsilent⟩ :=
      stop_course ({ t with standing := {} }.setStatus (statusAfter reason))
    exact ⟨by rw [hlast, hcourse]; rfl, hsilent.trans hmilestones⟩
  · obtain ⟨hcourse, hmilestones⟩ := setStatus_course t (statusAfter reason)
    refine ⟨?_, hmilestones⟩
    have hover : ({ t.setStatus (statusAfter reason) with phase := .settled } : Session).course =
        { (t.setStatus (statusAfter reason)).course with stage := .finished } := rfl
    rw [hover, hcourse]

theorem retryLater_retries (s : Session) :
    ∃ passed, s.course.Retries passed s.retryLater.course ∧
      s.retryLater.milestones = s.milestones ++ passed := by
  unfold retryLater
  split
  · next backoff delay h =>
    refine ⟨[], ?_, (List.append_nil _).symm⟩
    cases delay with
    | some delay => exact .permitted h
    | none => exact .halted h
  · next backoff error h =>
    obtain ⟨hcourse, hmilestones⟩ := shutdown_course { s with backoff } .reconnectExhausted
    refine ⟨_, ?_, hmilestones⟩
    rw [hcourse]
    exact .exhausted h

/-- A session that may reconnect says so, and then makes an attempt if the limits permit one. -/
theorem lose_eq {s : Session} (henabled : s.backoff.policy.enabled) :
    ∃ u : Session, s.lose = u.retryLater ∧
      u.course = { s.course with status := .reconnecting } ∧
      u.milestones = s.milestones ++ announcement s.status .reconnecting := by
  have hgone := Calm.hangUp s
  obtain ⟨hcourse, hmilestones⟩ := setStatus_course s.hangUp .reconnecting
  have hclosed : Calm (s.hangUp.setStatus .reconnecting)
      (((s.hangUp.setStatus .reconnecting).replyToAll .retry).closeStreams .disconnected
        fun subscription ↦ subscription.query.isNone) :=
    (Calm.replyToAll _ _).trans (.streamsOnly (.closeStreams _ _ _))
  have hstatus : s.hangUp.status = s.status := congrArg Course.status hgone.course
  refine ⟨_, if_pos henabled, ?_, ?_⟩
  · rw [hclosed.course, hcourse, hgone.course]
  · rw [hclosed.milestones, hmilestones, hgone.milestones, hstatus]

/-- The second state is reached on a route from the first. -/
def Travels (s t : Session) : Prop :=
  ∃ passed, s.course.Route passed t.course ∧ t.milestones = s.milestones ++ passed

namespace Travels

variable {s t u : Session} {passed : List Milestone}

theorem single (hleg : s.course.Leg passed t.course)
    (hmilestones : t.milestones = s.milestones ++ passed) : Travels s t :=
  ⟨passed, .single hleg, hmilestones⟩

theorem of_calm (h : Calm s t) : Travels s t :=
  ⟨[], by rw [h.course]; exact .refl, by rw [h.milestones, List.append_nil]⟩

theorem refl (s : Session) : Travels s s :=
  of_calm (.refl s)

theorem trans (hst : Travels s t) (htu : Travels t u) : Travels s u := by
  obtain ⟨first, hfirst, hfirstPassed⟩ := hst
  obtain ⟨second, hsecond, hsecondPassed⟩ := htu
  exact ⟨first ++ second, hfirst.trans hsecond,
    by rw [hsecondPassed, hfirstPassed, List.append_assoc]⟩

theorem after (htu : Travels t u) (hst : Calm s t) : Travels s u :=
  (of_calm hst).trans htu

theorem shutdown (hstage : s.phase.stage.isUp) (reason : DisconnectReason) :
    Travels s (s.shutdown reason) := by
  obtain ⟨hcourse, hmilestones⟩ := shutdown_course s reason
  refine single ?_ hmilestones
  rw [hcourse]
  exact .ended hstage reason

theorem retryLater (hstage : s.phase.stage = .dialing ∨ s.phase.stage = .restoring) :
    Travels s s.retryLater := by
  obtain ⟨passed, hretries, hmilestones⟩ := retryLater_retries s
  exact single (.lostAgain hstage hretries) hmilestones

theorem loseAgain (hstage : s.phase.stage = .dialing ∨ s.phase.stage = .restoring) :
    Travels s s.loseAgain := by
  have hcalm : Calm s (s.hangUp.replyToAll .retry) := (Calm.hangUp s).trans (.replyToAll _ _)
  exact (retryLater (hcalm.stage ▸ hstage)).after hcalm

theorem lose (hstage : s.phase.stage = .serving) : Travels s s.lose := by
  by_cases henabled : s.backoff.policy.enabled
  · obtain ⟨u, hlose, hcourse, hannounced⟩ := lose_eq henabled
    obtain ⟨passed, hretries, hmilestones⟩ := retryLater_retries u
    rw [hcourse, ← hlose] at hretries
    rw [hannounced, List.append_assoc, ← hlose] at hmilestones
    exact single (.lost hstage henabled hretries) hmilestones
  · have hgiven : s.lose = s.shutdown .transportLost := if_neg henabled
    rw [hgiven]
    exact shutdown (hstage ▸ rfl) _

theorem attend (hstage : s.phase.stage = .serving) : Travels s s.attend := by
  unfold Session.attend
  split
  · exact shutdown (hstage ▸ rfl) _
  · split
    · exact lose hstage
    · exact refl s

/-- A session that serves again is connected, and may lose its link at once. -/
theorem resume (hstage : s.phase.stage = .dialing ∨ s.phase.stage = .restoring) :
    Travels s s.resume := by
  have hresume : s.resume = { s.served with
      backoff := s.served.backoff.reset s.served.now
      phase := .serving (s.served.now + s.served.keepAlive) }.attend := rfl
  obtain ⟨hset, hannounced⟩ := setStatus_course s .connected
  -- the calls that waited are sent between the announcement and the reset of the backoff
  have hcalls : Calm (s.setStatus .connected) s.served := by
    have hforgotten : Calm (s.setStatus .connected)
        { s.setStatus .connected with deferred := [] } := .of_eq rfl rfl
    exact hforgotten.trans
      (.foldl (fun t (call : Ticket × Request) ↦ .dispatchCall t call.1 call.2) _ _)
  have hcourse : s.served.course = { s.course with status := .connected } :=
    hcalls.course.trans hset
  have hmilestones : s.served.milestones = s.milestones ++ announcement s.status .connected :=
    hcalls.milestones.trans hannounced
  rw [hresume]
  generalize s.served = t at hcourse hmilestones
  have hconnected : Travels s { t with
      backoff := t.backoff.reset t.now, phase := .serving (t.now + t.keepAlive) } := by
    refine single ?_ hmilestones
    have hserving : ({ t with
        backoff := t.backoff.reset t.now
        phase := .serving (t.now + t.keepAlive) } : Session).course =
        { t.course with stage := .serving, backoff := t.course.backoff.reset t.course.now } := rfl
    rw [hserving, hcourse]
    exact .connected (.inr hstage)
  exact hconnected.trans (attend rfl)

theorem await (hstage : s.phase.stage = .dialing ∨ s.phase.stage = .restoring)
    (restoration : Restoration) : Travels s (s.await restoration) := by
  unfold Session.await
  split
  · exact loseAgain hstage
  · exact single (.linked hstage) (List.append_nil _).symm

/-- No pass of a restoration leaves the route. -/
theorem pass {requests : List Request} {restarted : List Nat}
    (hstage : s.phase.stage = .dialing ∨ s.phase.stage = .restoring)
    (hpass : Pass s requests restarted t) : Travels s t := by
  have hawaits {t : Session} (hskips : Skips s t) (request : Request) (frame : Octets)
      (restoration : Restoration) :
      Travels s ((t.launch .restoration request frame).await restoration) := by
    have hcalm := (Calm.passed hskips.passed).trans (.launch t .restoration request frame)
    exact (await (hcalm.stage ▸ hstage) restoration).after hcalm
  cases hpass with
  | call hskips _ _ => exact hawaits hskips _ _ _
  | stream hskips _ _ _ _ _ => exact hawaits hskips _ _ _
  | done hskips _ _ =>
    have hcalm := Calm.passed hskips.passed
    exact (resume (hcalm.stage ▸ hstage)).after hcalm

theorem start (hphase : s.phase = .unopened) : Travels s s.start := by
  obtain ⟨hcourse, hmilestones⟩ := setStatus_course s .connecting
  have hstarted : s.start.course = { (s.setStatus .connecting).course with stage := .opening } :=
    rfl
  have hdialed : s.start.milestones = (s.setStatus .connecting).milestones ++ [.dial] := by
    simp [Session.start, milestones, push, Effect.milestone?]
  refine ⟨announcement s.status .connecting ++ [.dial], ?_, ?_⟩
  · rw [hstarted, hcourse]
    exact .single (.begun (congrArg Phase.stage hphase))
  · rw [hdialed, hmilestones, List.append_assoc]

theorem beginServing (hphase : s.phase = .opening) : Travels s s.beginServing := by
  generalize hfresh : { s.attach with
    standing := { s.standing with url := some s.url }
    backoff := s.backoff.reset s.now
    phase := .serving (s.now + s.keepAlive) } = t
  have hserving : s.beginServing = (t.setStatus .connected).push .opened := by
    rw [← hfresh]
    rfl
  have hstatus : t.status = s.status := by rw [← hfresh]; rfl
  have hquiet : t.milestones = s.milestones := by rw [← hfresh]; rfl
  have htcourse : t.course =
      { s.course with stage := .serving, backoff := s.course.backoff.reset s.course.now } := by
    rw [← hfresh]
    rfl
  have hopened : Calm (t.setStatus .connected) ((t.setStatus .connected).push .opened) :=
    .push _ rfl
  obtain ⟨hcourse, hmilestones⟩ := setStatus_course t .connected
  rw [hquiet, hstatus] at hmilestones
  rw [hserving]
  refine single ?_ (hopened.milestones.trans hmilestones)
  rw [hopened.course, hcourse, htcourse]
  exact .connected (.inl (congrArg Phase.stage hphase))

theorem failToOpen (hphase : s.phase = .opening) (error : TransportError) :
    Travels s (s.failToOpen error) := by
  obtain ⟨hcourse, hmilestones⟩ := setStatus_course s .error
  have hfailed : (s.failToOpen error).course =
      { (s.setStatus .error).course with stage := .finished } := rfl
  have hquiet : (s.failToOpen error).milestones = (s.setStatus .error).milestones := by
    simp [Session.failToOpen, milestones, push, Effect.milestone?]
  refine single ?_ (hquiet.trans hmilestones)
  rw [hfailed, hcourse]
  exact .failed (congrArg Phase.stage hphase)

theorem call (hstage : s.phase.stage = .serving) (ticket : Ticket) (request : Request) :
    Travels s (s.dispatchCall ticket request).attend := by
  have hcalm := Calm.dispatchCall s ticket request
  exact (attend (hcalm.stage.trans hstage)).after hcalm

/-- A keep-alive does not decide anything, but shows whether the link is broken. -/
theorem keepAlive (hstage : s.phase.stage = .serving) (tick : Nat) :
    Travels s { s.ping with phase := .serving tick }.attend := by
  have hcalm := Calm.ping s
  have hserving : s.ping.phase.stage = .serving := hcalm.stage.trans hstage
  have hnext : Calm s.ping { s.ping with phase := .serving tick } := by
    refine .of_eq ?_ rfl
    rw [Session.course, Session.course, hserving]
    rfl
  exact (attend rfl).after (hcalm.trans hnext)

theorem stop (hphase : s.phase = .settled) : Travels s s.stop := by
  obtain ⟨hcourse, hmilestones⟩ := stop_course s
  have hsame : s.stop.course = s.course := by
    rw [hcourse, Session.course, hphase]
    rfl
  exact ⟨[], by rw [hsame]; exact .refl, by rw [hmilestones, List.append_nil]⟩

end Travels

theorem Proceeds.calm {s v : Session} {event : Event} (h : Proceeds s event v) : Calm s v := by
  cases h with
  | linked _ => exact .of_eq rfl rfl
  | @restored frame n response restoration _ _ _ =>
    exact (Calm.routeReply s n.toNat response).trans (.passed (concludes _ _ _).passed)

theorem Proceeds.stage {s v : Session} {event : Event} (h : Proceeds s event v) :
    v.phase.stage = .dialing ∨ v.phase.stage = .restoring := by
  rw [h.calm.stage]
  cases h with
  | linked hphase => exact .inl (hphase ▸ rfl)
  | restored hphase _ _ => exact .inr (hphase ▸ rfl)

theorem IsServing.stage {s : Session} (h : s.IsServing) : s.phase.stage = .serving := by
  obtain ⟨tick, hs⟩ := h
  rw [hs]
  rfl

theorem isUp_of_phase {s : Session} (h : s.IsServing ∨ s.IsRecovering) : s.phase.stage.isUp := by
  rcases h with ⟨tick, hs⟩ | ⟨wake, hs⟩ | hs | ⟨restoration, hs⟩ <;> rw [hs] <;> rfl

/-- A session in which the time of an event has passed, under the circumstances that it leaves. -/
def later (s : Session) (event : Event) : Session :=
  { s with now := s.now + event.elapsed, circumstances := event.leaves s.circumstances }

/-- Every turn takes a route, once the time of the event has passed. -/
theorem Turn.travels {s t : Session} {event : Event} (hlive : s.LiveTable)
    (hturn : Turn s event t) : Travels (s.later event) t := by
  cases hturn with
  | rest heq _ _ =>
    refine .of_calm (.of_eq ?_ ?_) <;> rw [heq] <;> rfl
  | started hphase => exact .start hphase
  | opened hphase => exact .beginServing hphase
  | failed hphase error => exact .failToOpen hphase error
  | obeyed _ _ _ => exact .of_calm (.obey s _)
  | called hphase ticket request => exact .call hphase.stage ticket request
  | @pinged tick hphase nanoseconds =>
    have hserving : (s.later (.elapse nanoseconds)).phase.stage = .serving := hphase.stage
    exact .keepAlive hserving tick
  | notified _ _ => exact .of_calm (.streamsOnly (.routeNotification s _))
  | answered _ _ => exact .of_calm (.routeReply s _ _)
  | lost hphase => exact .lose hphase.stage
  | lostAgain hphase => exact .loseAgain (.inr (hphase ▸ rfl))
  | dialed hphase nanoseconds =>
    have hdialed : ({ s with now := s.now + nanoseconds, phase := .dialing }.push
        (.dial s.url)).milestones = s.milestones ++ [.dial] := by
      simp [milestones, push, Effect.milestone?]
    exact .single (.dialed (congrArg Phase.stage hphase)) hdialed
  | refused hphase _ => exact .retryLater (.inl (hphase ▸ rfl))
  | linked hphase =>
    have hproceeds := Proceeds.linked hphase
    exact (Travels.pass hproceeds.stage (restore_pass _ _ (hlive.of_streamState rfl))).after
      hproceeds.calm
  | @restored frame n response restoration hphase hexpected hread =>
    have hproceeds := Proceeds.restored hphase hexpected hread
    exact (Travels.pass hproceeds.stage
      (answered_pass s response hlive n.toNat restoration)).after hproceeds.calm
  | @ended event u heq hphase _ reason =>
    have hcalm : Calm (s.later event) u := by rw [heq]; exact .of_eq rfl rfl
    have hup : u.phase.stage.isUp := by rw [heq]; exact isUp_of_phase hphase
    exact (Travels.shutdown hup reason).after hcalm
  | @stopped event u heq hphase _ =>
    have hcalm : Calm (s.later event) u := by rw [heq]; exact .of_eq rfl rfl
    exact (Travels.stop (by rw [heq]; exact hphase)).after hcalm

end Session

end Wireline
