import Wireline.Proofs.Session.Reconnection

/-!
# The link of a stream

A session that has a link has held it since it was opened (`Holds`). While it restores the link, it
starts the queries of its streams again, and once it serves its callers, each open stream is of this
link: its query was started again on it (`RestartedAs`), or the stream was opened by a command that
came when the session was connected already (`OpenedOn`), and then nothing has changed its id since.
`attached_run` says so for every state of a run that has a link.
-/

set_option autoImplicit false
set_option relaxedAutoImplicit false

namespace Wireline

namespace Session

/-! ### Phases with a link -/

section Phases

variable {s t : Session} {event : Event}

theorem Quiescent.isServing_or_isRestoring (h : s.Quiescent) (hlink : s.link ≠ .none) :
    s.IsServing ∨ s.IsRestoring := by
  unfold Quiescent at h
  cases hs : s.phase with
  | serving tick => exact .inl ⟨tick, hs⟩
  | restoring restoration => exact .inr ⟨restoration, hs⟩
  | stopped | halted =>
    simp only [hs] at h
    exact absurd h.1 hlink
  | _ =>
    simp only [hs] at h
    exact absurd h.link hlink

/-- There is no link while one is asked for. -/
theorem Quiescent.link_of_asked (h : s.Quiescent)
    (hphase : s.phase = .opening ∨ s.phase = .dialing) : s.link = .none := by
  rcases hphase with hopening | hdialing
  · exact (h.unlinked (.inr (.inl hopening))).link
  · exact (h.unlinked (.inr (.inr (.inr (.inl hdialing))))).link

theorem retryLater_not_isServing (s : Session) : ¬ s.retryLater.IsServing := by
  rintro ⟨tick, hphase⟩
  unfold retryLater at hphase
  split at hphase
  · next delay _ => cases delay <;> cases hphase
  · exact (shutdown_isOver _ _).not_isServing ⟨tick, hphase⟩

theorem await_not_isServing (s : Session) (restoration : Restoration) :
    ¬ (s.await restoration).IsServing := by
  unfold await
  split
  · exact retryLater_not_isServing _
  · rintro ⟨tick, hphase⟩
    cases hphase

/-- A session serves its callers from the opening of the first link on, or from the answer that
completes a restoration. -/
theorem Turn.isServing (h : Turn s event t) (hserving : t.IsServing) :
    s.IsServing ∨ (event = .linked ∧ (s.phase = .opening ∨ s.phase = .dialing)) ∨
    ∃ frame n response restoration, event = .frame frame ∧ s.phase = .restoring restoration ∧
      s.Expects n ∧ read frame = .ok (.reply n response) ∧
      t = (s.routeReply n.toNat response).attendRestoration
        { restoration with answer := some response } := by
  obtain ⟨tick, ht⟩ := hserving
  cases h with
  | rest heq _ _ =>
    rw [heq] at ht
    exact .inl ⟨tick, ht⟩
  | started _ => cases ht
  | opened hphase => exact .inr (.inl ⟨rfl, .inl hphase⟩)
  | failed _ _ => cases ht
  | @obeyed command _ _ _ => exact .inl ⟨tick, (obey_keeps s command).1.symm.trans ht⟩
  | called hphase _ _ => exact .inl hphase
  | pinged hphase _ => exact .inl hphase
  | @notified frame message _ _ =>
    have hstreams := StreamsOnly.routeNotification s message
    exact .inl ⟨tick, (phase_eq_of_controlState hstreams.controlState).symm.trans ht⟩
  | @answered frame n response _ _ =>
    rcases routeReply_phase s n.toNat response with hsame | ⟨-, restoration, -, hnoted⟩
    · exact .inl ⟨tick, hsame.symm.trans ht⟩
    · cases hnoted.symm.trans ht
  | lost hphase => exact .inl hphase
  | lostAgain _ => exact absurd ⟨tick, ht⟩ (retryLater_not_isServing _)
  | dialed _ _ => cases ht
  | refused _ _ => exact absurd ⟨tick, ht⟩ (retryLater_not_isServing s)
  | linked hphase => exact .inr (.inl ⟨rfl, .inr hphase⟩)
  | restored hphase hexpected hread =>
    exact .inr (.inr ⟨_, _, _, _, rfl, hphase, hexpected, hread, rfl⟩)
  | ended _ _ _ reason => exact absurd ⟨tick, ht⟩ (shutdown_isOver _ reason).not_isServing
  | stopped _ _ _ => cases (stop_phase _).symm.trans ht

end Phases

/-! ### What is opened while a session serves -/

/-- The stream was opened by a command that came when the session was connected, and has the id that
the command gave. -/
def OpenedOn (s₀ : Session) (events : List Event) (subscription : Subscription) : Prop :=
  ∃ before ticket,
    before ++ [.command (.subscribe ticket subscription.id subscription.query)] <+: events ∧
      (s₀.run before).status = .connected

theorem OpenedOn.mono {s₀ : Session} {events later : List Event} {subscription : Subscription}
    (h : OpenedOn s₀ events subscription) (hlater : events <+: later) :
    OpenedOn s₀ later subscription := by
  obtain ⟨before, ticket, hbefore, hstatus⟩ := h
  exact ⟨before, ticket, hbefore.trans hlater, hstatus⟩

/-- While it serves its callers, a session opens a stream for a command only, and leads none to
another id. -/
theorem step_subscriptions {s : Session} (hs : s.Quiescent) (hserving : s.IsServing)
    (event : Event) (handle : Nat) (subscription : Subscription)
    (hget : (s.step event).subscriptions.get? handle = some subscription) :
    s.subscriptions.get? handle = some subscription ∨
      ∃ ticket, event = .command (.subscribe ticket subscription.id subscription.query) := by
  refine (step_path hs event).invariant (fun t ↦ ∀ subscription,
    t.subscriptions.get? handle = some subscription →
      s.subscriptions.get? handle = some subscription ∨
        ∃ ticket, event = .command (.subscribe ticket subscription.id subscription.query)) ?_
    (fun _ h ↦ .inl h) subscription hget
  intro t action u hpermits hmove ih subscription hget
  have hsame (hstreams : u.streamState = t.streamState) :=
    ih subscription ((congrArg (·.2.1) hstreams : u.subscriptions = t.subscriptions) ▸ hget)
  have herased {closed : Nat} (h : u.subscriptions = t.subscriptions.erase closed) := by
    rw [h, Table.get?_erase] at hget
    split at hget
    · cases hget
    · exact ih subscription hget
  cases hmove.onStreams with
  | same _ hstreams => exact hsame hstreams
  | notify message =>
    rcases routeNotification_subscriptions t message with hkept | ⟨closed, -, -, -, hclosed⟩
    · rw [hkept] at hget
      exact ih subscription hget
    · exact herased hclosed
  | register id query =>
    rcases hpermits with ⟨-, ticket, hevent⟩ | hfollows
    · simp only [register, Table.get?_set] at hget
      split at hget
      · cases hget
        exact .inr ⟨ticket, hevent⟩
      · exact ih subscription hget
    · exact hfollows.elim
  | close reason closed => exact herased (closeStream_subscriptions t reason closed)
  | rebind bound id =>
    rcases hpermits with ⟨-, _, _, _, restoration, -, -, -, hphase, -⟩ | hfollows
    · exact absurd hserving (IsRecovering.not_isServing (.inr (.inr ⟨restoration, hphase⟩)))
    · exact hfollows.elim

/-! ### The streams of a link -/

/-- The link that was asked for was opened after the events `earlier`, and the session has held it
since. -/
structure Holds (s₀ : Session) (earlier since : List Event) : Prop where
  asked : (s₀.run earlier).phase = .opening ∨ (s₀.run earlier).phase = .dialing
  held : ∀ sofar, sofar <+: since → (s₀.run (earlier ++ .linked :: sofar)).link ≠ .none

/-- The session holds one link at a time. -/
theorem Holds.unique {s₀ : Session} (hs : s₀.Steady) {earlier since before after : List Event}
    (h : Holds s₀ earlier since) (hother : Holds s₀ before after)
    (hsame : earlier ++ .linked :: since = before ++ .linked :: after) :
    earlier = before ∧ since = after := by
  have hinside {first second sofar rest : List Event} (hfirst : Holds s₀ first second)
      (hasked : (s₀.run (first ++ .linked :: sofar)).phase = .opening ∨
        (s₀.run (first ++ .linked :: sofar)).phase = .dialing)
      (hsecond : second = sofar ++ rest) : False :=
    hfirst.held sofar (hsecond ▸ List.prefix_append sofar rest)
      ((hs.run _).quiescent.link_of_asked hasked)
  rcases List.append_eq_append_iff.mp hsame with ⟨between, rfl, hrest⟩ | ⟨between, rfl, hrest⟩
  · cases between with
    | nil => exact ⟨(List.append_nil _).symm, (List.cons.inj hrest).2⟩
    | cons event sofar =>
      obtain ⟨rfl, hsince⟩ := List.cons.inj hrest
      exact (hinside h hother.asked hsince).elim
  · cases between with
    | nil => exact ⟨List.append_nil _, (List.cons.inj hrest).2.symm⟩
    | cons event sofar =>
      obtain ⟨rfl, hafter⟩ := List.cons.inj hrest
      exact (hinside hother h.asked hafter).elim

/-- The session restores the link that was asked for in `s₀`, or it serves its callers, and each
open stream is of that link. -/
structure Attached (s₀ : Session) (events : List Event) (s : Session) : Prop where
  restoring : ∀ restoration, s.phase = .restoring restoration → Awaiting s₀ events s restoration
  serving : s.IsServing → ∀ handle subscription,
    s.subscriptions.get? handle = some subscription →
      RestartedAs s₀ events subscription ∨ OpenedOn s₀ events subscription

section Attached

variable {s₀ s t : Session} {events : List Event} {event : Event} {left : List Request}
  {begun : List Nat}

/-- A pass after which a session serves again was the last one. All streams that are open then were
started again. -/
theorem Ready.restarted_of_isServing {v : Session}
    (h : Ready s₀ (events ++ [event]) v left begun) (hpass : Pass v left begun t)
    (ht : t.Coherent) (hserving : t.IsServing) {handle : Nat} {subscription : Subscription}
    (hget : t.subscriptions.get? handle = some subscription) :
    RestartedAs s₀ (events ++ [event]) subscription := by
  cases hpass with
  | call _ _ _ => exact absurd hserving (await_not_isServing _ _)
  | stream _ _ _ _ _ _ => exact absurd hserving (await_not_isServing _ _)
  | @done u hskips hframed hnone =>
    have hready : Ready s₀ (events ++ [event]) u [] begun := h.skips hskips hframed (.inl rfl)
    have hstreams := resume_streamState (ht.serving hserving).1
    have hsubscriptions : u.resume.subscriptions = u.subscriptions := congrArg (·.2.1) hstreams
    exact hready.restartedAs hnone (hsubscriptions ▸ hget)

/-- The first link is opened, or another one after a loss. -/
theorem Steady.attached (hs : s.Steady) (hphase : s.phase = .opening ∨ s.phase = .dialing) :
    Attached s [.linked] (s.step .linked) := by
  rcases hphase with hopening | hdialing
  · have hstep : s.step .linked = s.beginServing := by simp only [Session.step, hopening]
    have hclosed := (hs.coherent.vacant (.inr (.inl hopening))).closed
    have hsubscriptions : s.beginServing.subscriptions = s.subscriptions :=
      congrArg (·.2.1) (Aside.setStatus _ .connected).streamState
    rw [hstep]
    constructor
    · intro restoration ht
      have hserving : s.beginServing.phase = .serving (s.now + s.keepAlive) :=
        phase_eq_of_controlState (setStatus_controlState _ .connected)
      cases hserving.symm.trans ht
    · intro _ handle subscription hget
      rw [hsubscriptions, hclosed handle] at hget
      cases hget
  · have hstep : s.step .linked = s.attach.restore s.standing.restoreRequests := by
      simp only [Session.step, hdialing]
    have hready : Ready s ([] ++ [.linked]) s.attach s.standing.restoreRequests [] :=
      hs.ready hdialing
    refine ⟨fun restoration ht ↦ (hs.linked_outcome hdialing).awaiting ht, ?_⟩
    intro hserving handle subscription hget
    have hpass := restore_pass s.standing.restoreRequests s.attach hready.liveTable
    rw [← hstep] at hpass
    exact .inl (hready.restarted_of_isServing hpass (hs.step .linked).coherent hserving hget)

/-- What happens on a link. -/
theorem Attached.step (h : Attached s₀ events s) (hs : s.Steady) (hrun : s₀.run events = s)
    (hlink : s.link ≠ .none) (event : Event) : Attached s₀ (events ++ [event]) (s.step event) := by
  have hlater : events <+: events ++ [event] := List.prefix_append _ _
  have hunasked : ¬ (s.phase = .opening ∨ s.phase = .dialing) :=
    fun hphase ↦ hlink (hs.quiescent.link_of_asked hphase)
  constructor
  · intro restoration ht
    rcases (hs.turn event).isRestoring ⟨restoration, ht⟩ with ⟨hdialing, -⟩ | ⟨previous, hphase⟩
    · exact absurd (.inr hdialing) hunasked
    · exact ((h.restoring previous hphase).outcome hs hrun event).awaiting ht
  · intro hserving handle subscription hget
    rcases (hs.turn event).isServing hserving with hbefore | ⟨-, hphase⟩ |
      ⟨frame, n, response, restoration, rfl, hphase, hexpected, hread, hstep⟩
    · rcases step_subscriptions hs.quiescent hbefore event handle subscription hget with
        hold | ⟨ticket, rfl⟩
      · rcases h.serving hbefore handle subscription hold with hrestarted | hopened
        · exact .inl (hrestarted.mono hlater)
        · exact .inr (hopened.mono hlater)
      · have hstatus : (s₀.run events).status = .connected := by
          rw [hrun]
          exact (hs.coherent.serving hbefore).1
        exact .inr ⟨events, ticket, List.prefix_refl _, hstatus⟩
    · exact absurd hphase hunasked
    · have hready := (h.restoring restoration hphase).conclude hs hrun hexpected hread
      have hpass := answered_pass s response hs.liveTable n.toNat restoration
      rw [← hstep] at hpass
      exact .inl (hready.restarted_of_isServing hpass (hs.step _).coherent hserving hget)

end Attached

/-- In every state of a run that has a link, the session has held that link since it was opened, and
when it serves its callers all open streams are of that link. -/
theorem attached_run {s₀ : Session} (hs : s₀.Steady) (hbegin : s₀.link = .none)
    (events : List Event) : (s₀.run events).link ≠ .none →
      ∃ earlier since, events = earlier ++ .linked :: since ∧ Holds s₀ earlier since ∧
        Attached (s₀.run earlier) (.linked :: since) (s₀.run events) := by
  induction events using List.reverseRecOn with
  | nil => exact fun hlink ↦ absurd hbegin hlink
  | append_singleton events event ih =>
    have hsteady := hs.run events
    rw [run_concat]
    intro hnext
    by_cases hlink : (s₀.run events).link = .none
    · -- the link is opened by this event
      have hasked : event = .linked ∧
          ((s₀.run events).phase = .opening ∨ (s₀.run events).phase = .dialing) := by
        have hunserved : ¬ (s₀.run events).IsServing :=
          fun ⟨tick, hphase⟩ ↦ hsteady.quiescent.not_serving hlink tick hphase
        have hunrestored : ¬ (s₀.run events).IsRestoring :=
          fun ⟨restoration, hphase⟩ ↦
            (hsteady.quiescent.linked_of_restoring hphase).1.link hlink
        rcases (hsteady.step event).quiescent.isServing_or_isRestoring hnext with
          hserving | hrestoring
        · rcases (hsteady.turn event).isServing hserving with hbefore | hlinked |
            ⟨_, _, _, restoration, -, hphase, -⟩
          · exact absurd hbefore hunserved
          · exact hlinked
          · exact absurd ⟨restoration, hphase⟩ hunrestored
        · rcases (hsteady.turn event).isRestoring hrestoring with ⟨hdialing, hevent⟩ | hbefore
          · exact ⟨hevent, .inr hdialing⟩
          · exact absurd hbefore hunrestored
      obtain ⟨rfl, hphase⟩ := hasked
      refine ⟨events, [], rfl, ⟨hphase, fun sofar hsofar ↦ ?_⟩, hsteady.attached hphase⟩
      rw [List.prefix_nil.mp hsofar, run_concat]
      exact hnext
    · obtain ⟨earlier, since, rfl, hholds, hattached⟩ := ih hlink
      have hrun : (s₀.run earlier).run (.linked :: since) = s₀.run (earlier ++ .linked :: since) :=
        (run_append s₀ earlier _).symm
      refine ⟨earlier, since ++ [event], by simp, ⟨hholds.asked, fun sofar hsofar ↦ ?_⟩,
        hattached.step hsteady hrun hlink event⟩
      rcases List.prefix_concat_iff.mp hsofar with rfl | hbefore
      · rw [← List.cons_append, ← List.append_assoc, run_concat]
        exact hnext
      · exact hholds.held sofar hbefore

end Session

end Wireline
