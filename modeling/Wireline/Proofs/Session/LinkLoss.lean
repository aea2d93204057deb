import Wireline.Proofs.Session.Pacing

/-!
# The loss of a link in use

A turn of a session that serves its callers leaves the course alone, ends the session, or begins
with the loss of the link (`Turn.of_serving`). What follows a loss is decided by the limits of the
policy alone (`Steady.loss`), of which one counts the connections of the last window
(`Course.Paced.attempt_iff`). A session that goes on waits, and asks for a link once the time has
come (`dials_of_waiting`), and one that gives up never does (`journal_of_stays`).

The first connection counts in the window like any other. So a policy that permits one connection in
a window does not permit to replace the first link within the window that begins with it
(`first_loss_reconnects_iff`).
-/

set_option autoImplicit false
set_option relaxedAutoImplicit false

namespace Wireline

namespace Session

variable {s t : Session} {event : Event}

/-! ### Turns of a serving session -/

theorem attend_eq (s : Session) :
    s.attend = s ∨ s.attend = s.lose ∨ ∃ reason, s.attend = s.shutdown reason := by
  unfold attend
  split
  · exact .inr (.inr ⟨_, rfl⟩)
  · split
    · exact .inr (.inl rfl)
    · exact .inl rfl

/-- The course of a session that serves its callers changes if it loses its link or is shut down. -/
theorem Turn.of_serving (h : Turn s event t) (hs : s.IsServing) :
    Calm (s.later event) t ∨ ∃ u, Calm (s.later event) u ∧
      (t = u.lose ∨ ∃ reason, t = u.shutdown reason) := by
  have hattended {u : Session} (hcalm : Calm (s.later event) u) (ht : t = u.attend) :
      Calm (s.later event) t ∨ ∃ u, Calm (s.later event) u ∧
        (t = u.lose ∨ ∃ reason, t = u.shutdown reason) := by
    rcases attend_eq u with hsame | hends
    · exact .inl (ht.trans hsame ▸ hcalm)
    · exact .inr ⟨u, hcalm, ht ▸ hends⟩
  have hstage := hs.stage
  cases h with
  | rest heq _ _ => exact .inl (.of_eq (by rw [heq]; rfl) (by rw [heq]; rfl))
  | started hphase | opened hphase | failed hphase _ | lostAgain hphase | dialed hphase _
  | refused hphase _ | linked hphase | restored hphase _ _ | stopped _ hphase _ =>
    rw [hphase] at hstage
    cases hstage
  | obeyed _ _ _ => exact .inl (.obey s _)
  | called _ ticket request => exact hattended (.dispatchCall s ticket request) rfl
  | @pinged tick _ nanoseconds =>
    have hping := Calm.ping (s.later (.elapse nanoseconds))
    have hserving : (s.later (.elapse nanoseconds)).ping.phase.stage = .serving :=
      hping.stage.trans hstage
    have hnext : Calm (s.later (.elapse nanoseconds)).ping
        { (s.later (.elapse nanoseconds)).ping with phase := .serving tick } := by
      refine .of_eq ?_ rfl
      rw [Session.course, Session.course, hserving]
      rfl
    exact hattended (hping.trans hnext) rfl
  | notified _ _ => exact .inl (.streamsOnly (.routeNotification s _))
  | answered _ _ => exact .inl (.routeReply s _ _)
  | lost _ => exact .inr ⟨s, .of_eq rfl rfl, .inl rfl⟩
  | @ended event u heq _ _ reason =>
    exact .inr ⟨u, .of_eq (by rw [heq]; rfl) (by rw [heq]; rfl), .inr ⟨reason, rfl⟩⟩

theorem isServing_of_stage (h : s.phase.stage = .serving) : s.IsServing := by
  cases hphase : s.phase with
  | serving tick => exact ⟨tick, hphase⟩
  | _ =>
    rw [hphase] at h
    cases h

/-- The milestones of a step. -/
theorem milestones_step (hs : s.Steady) (event : Event) : (s.step event).milestones =
    s.milestones ++ (s.emitted event).filterMap Effect.milestone? := by
  rw [milestones, outbox_eq_emitted hs.quiescent event, List.filterMap_append]
  rfl

/-- The link is gone, or the session says that it is to get back to its server. -/
def LosesLink (s : Session) (event : Event) : Prop :=
  event = .lost ∨ .status .reconnecting ∈ s.emitted event

theorem LosesLink.step_eq (h : s.LosesLink event) (hs : s.Steady) (hserving : s.IsServing) :
    ∃ u, Calm (s.later event) u ∧ s.step event = u.lose := by
  rcases h with rfl | hannounced
  · obtain ⟨tick, hphase⟩ := hserving
    refine ⟨s, .of_eq rfl rfl, ?_⟩
    simp only [step, hphase]
  · have hpassed : .status .reconnecting ∈ (s.emitted event).filterMap Effect.milestone? :=
      List.mem_filterMap.mpr ⟨_, hannounced, rfl⟩
    have hmilestones := milestones_step hs event
    rcases (hs.turn event).of_serving hserving with hcalm | ⟨u, hcalm, hlost | ⟨reason, hended⟩⟩
    · have hsame : (s.step event).milestones = s.milestones := hcalm.milestones
      rw [hsame] at hmilestones
      rw [List.self_eq_append_right.mp hmilestones] at hpassed
      exact absurd hpassed List.not_mem_nil
    · exact ⟨u, hcalm, hlost⟩
    · -- what is announced at the end is a final status
      have hlast := (shutdown_course u reason).2
      have hsame : u.milestones = s.milestones := hcalm.milestones
      rw [← hended, hmilestones, hsame, List.append_cancel_left_eq] at hlast
      rw [hlast] at hpassed
      have hfinal := statusAfter_isFinal reason
      rcases announcement_cases u.status (statusAfter reason) with hsilent | hsaid
      · simp [hsilent] at hpassed
      · rw [hsaid, List.mem_singleton, Milestone.status.injEq] at hpassed
        rw [← hpassed] at hfinal
        rcases hfinal with hfinal | hfinal <;> cases hfinal

/-! ### What follows a loss -/

/-- What a session has come to that was to make an attempt to reconnect, with a backoff: it pauses
before the attempt if that is permitted, and is over if not. -/
def Attempted (backoff : Backoff) (t : Session) : Prop :=
  (∃ delay, (backoff.beginAttempt t.now t.circumstances.draw).2 = .ok delay ∧
    t.phase = t.pausing delay) ∨
  (∀ delay, (backoff.beginAttempt t.now t.circumstances.draw).2 ≠ .ok delay) ∧
    t.IsOver ∧ t.status = .error

theorem retryLater_attempted (s : Session) :
    s.retryLater.now = s.now ∧ Attempted s.backoff s.retryLater := by
  cases hbegun : s.backoff.beginAttempt s.now s.circumstances.draw with
  | mk backoff result =>
    cases result with
    | ok delay =>
      have hpauses : s.retryLater = { s with backoff, phase := s.pausing delay } := by
        simp only [retryLater, hbegun]
      rw [hpauses]
      exact ⟨rfl, .inl ⟨delay, congrArg Prod.snd hbegun, rfl⟩⟩
    | error error =>
      have hends : s.retryLater = { s with backoff }.shutdown .reconnectExhausted := by
        simp only [retryLater, hbegun]
      have hover := shutdown_isOver { s with backoff } .reconnectExhausted
      have hcourse := (shutdown_course { s with backoff } .reconnectExhausted).1
      rw [hends]
      -- what is left of the session matters by its course alone, and need not be unfolded
      generalize { s with backoff }.shutdown .reconnectExhausted = u at hover hcourse ⊢
      have hnow : u.now = s.now := congrArg Course.now hcourse
      have hcircumstances : u.circumstances = s.circumstances :=
        congrArg Course.circumstances hcourse
      refine ⟨hnow, .inr ⟨fun delay ↦ ?_, hover, congrArg Course.status hcourse⟩⟩
      rw [hnow, hcircumstances, hbegun]
      nofun

/-- Assumes: reconnecting is permitted at all. -/
theorem lose_attempted (henabled : s.backoff.policy.enabled) :
    s.lose.now = s.now ∧ Attempted s.backoff s.lose := by
  obtain ⟨u, hlose, hcourse, -⟩ := lose_eq henabled
  have hbackoff : u.backoff = s.backoff := congrArg Course.backoff hcourse
  have hnow : u.now = s.now := congrArg Course.now hcourse
  rw [hlose, ← hbackoff, ← hnow]
  exact retryLater_attempted u

theorem Steady.loss (hs : s.Steady) (hserving : s.IsServing) (henabled : s.backoff.policy.enabled)
    (hloses : s.LosesLink event) :
    (s.step event).now = s.now + event.elapsed ∧ Attempted s.backoff (s.step event) := by
  obtain ⟨u, hcalm, hstep⟩ := hloses.step_eq hs hserving
  have hbackoff : u.backoff = s.backoff := congrArg Course.backoff hcalm.course
  have hnow : u.now = s.now + event.elapsed := congrArg Course.now hcalm.course
  obtain ⟨hsame, hattempted⟩ := lose_attempted (hbackoff ▸ henabled)
  rw [hstep, ← hbackoff]
  exact ⟨hsame.trans hnow, hattempted⟩

/-! ### Waiting -/

/-- The callers want the connection no longer. -/
def Event.isFarewell : Event → Bool
  | .command (.close _) | .abandoned => true
  | _ => false

/-- A session that is over or has broken down passes no milestone. -/
theorem journal_of_stays (hs : s.Steady) (hstays : s.course.Stays) (events : List Event) :
    s.journal events = [] := by
  induction events generalizing s with
  | nil => rfl
  | cons event rest ih =>
    obtain ⟨passed, hroute, hmilestones⟩ := hs.travels event
    obtain ⟨hsame, rfl⟩ := hroute.of_stays (c := (s.later event).course) hstays
    have hnone : (s.emitted event).filterMap Effect.milestone? = [] :=
      List.append_cancel_left ((milestones_step hs event).symm.trans hmilestones)
    have hnext : (s.step event).course.Stays := by
      rw [hsame]
      exact hstays
    rw [journal, hnone, ih (hs.step event) hnext]
    rfl

section Waiting

variable {due nanoseconds : Nat}

theorem isDue_of_waiting (hphase : s.phase = .backingOff due) :
    (s.later (.elapse nanoseconds)).isDue ↔ due ≤ s.now + nanoseconds := by
  simp only [isDue, dueAt, later, hphase, Option.any_some, decide_eq_true_eq]
  rfl

theorem emitted_of_due (hphase : s.phase = .backingOff due) (hdue : due ≤ s.now + nanoseconds) :
    s.emitted (.elapse nanoseconds) = [.dial s.url] := by
  have hstep : s.step (.elapse nanoseconds) = (s.later (.elapse nanoseconds)).wake :=
    if_pos ((isDue_of_waiting hphase).mpr hdue)
  have houtbox : (s.later (.elapse nanoseconds)).wake.outbox = s.outbox ++ [.dial s.url] := by
    rw [wake, show (s.later (.elapse nanoseconds)).phase = .backingOff due from hphase]
    rfl
  rw [emitted, hstep, houtbox, List.drop_left]

/-- Until the time for the next attempt has come, a session waits for it unless it is to end. -/
theorem step_of_waiting (hs : s.Steady) (hphase : s.phase = .backingOff due)
    (hstays : event.isFarewell = false) :
    (s.step event).phase = .backingOff due ∨
      .dial ∈ (s.emitted event).filterMap Effect.milestone? := by
  cases event with
  | command command =>
    have hopen : s.isOpen := by simp [isOpen, hphase]
    have hclose (ticket : Ticket) : command ≠ .close ticket := by
      rintro rfl
      cases hstays
    have hcall (hserving : s.IsServing) : ∀ ticket request, command ≠ .request ticket request :=
      absurd hserving (IsRecovering.not_isServing (.inl ⟨due, hphase⟩))
    have hobeyed : s.step (.command command) = s.obey command :=
      (if_pos hopen).trans (obey_quiescent hs.quiescent hclose hcall).settle_eq
    exact .inl (hobeyed ▸ (obey_keeps s command).1.trans hphase)
  | abandoned => cases hstays
  | severed =>
    refine .inl ?_
    simp only [step]
    split <;> exact hphase
  | elapse nanoseconds =>
    by_cases hdue : due ≤ s.now + nanoseconds
    · rw [emitted_of_due hphase hdue]
      exact .inr (List.mem_singleton_self _)
    · have hstep : s.step (.elapse nanoseconds) = s.later (.elapse nanoseconds) :=
        if_neg (mt (isDue_of_waiting hphase).mp hdue)
      rw [hstep]
      exact .inl hphase
  | altered circumstances => exact .inl hphase
  | start | linked | refused | frame | lost =>
    simp only [step, hphase]
    exact .inl trivial

/-- A link is asked for as soon as it is seen that the time has come. -/
theorem dials_of_waiting (hs : s.Steady) (hphase : s.phase = .backingOff due)
    (later : List Event) (hstays : ∀ event ∈ later, event.isFarewell = false)
    (hdue : due ≤ (s.run later).now + nanoseconds) :
    ∃ time, (time, .dial) ∈ s.journal (later ++ [.elapse nanoseconds]) := by
  induction later generalizing s with
  | nil =>
    refine ⟨_, List.mem_append_left _ (List.mem_map.mpr ⟨.dial, ?_, rfl⟩)⟩
    rw [emitted_of_due hphase hdue]
    exact List.mem_singleton_self _
  | cons event rest ih =>
    rcases step_of_waiting hs hphase (hstays event List.mem_cons_self) with hwaits | hdials
    · obtain ⟨time, hmem⟩ := ih (hs.step event) hwaits
        (fun other hother ↦ hstays other (List.mem_cons_of_mem _ hother)) hdue
      exact ⟨time, List.mem_append_right _ hmem⟩
    · exact ⟨_, List.mem_append_left _ (List.mem_map.mpr ⟨.dial, hdials, rfl⟩)⟩

end Waiting

/-! ### What the limits permit -/

/-- While a link is in use no attempt to reconnect counts. -/
def Course.Rested (c : Course) : Prop :=
  c.stage = .serving → c.backoff.attempts = 0

namespace Course

variable {c next : Course} {passed : List Milestone}

theorem Leg.rested (h : c.Leg passed next) : next.Rested := by
  have hretries {c : Course} {passed : List Milestone} (h : c.Retries passed next) :
      next.Rested := by
    cases h with
    | permitted _ | halted _ | exhausted _ => exact fun hserving ↦ nomatch hserving
  cases h with
  | connected _ => exact fun _ ↦ rfl
  | lost _ _ h | lostAgain _ h => exact hretries h
  | begun _ | failed _ | dialed _ | linked _ | ended _ _ => exact fun hserving ↦ nomatch hserving

theorem Route.rested (h : c.Route passed next) (hc : c.Rested) : next.Rested := by
  cases h with
  | refl => exact hc
  | tail _ hleg => exact hleg.rested

/-- An attempt is permitted as long as fewer connections than the limit are recent. -/
theorem Paced.attempt_iff {policy : BackoffPolicy} {journal : List (Nat × Milestone)}
    (h : c.Paced policy journal) (hwindow : 0 < policy.window.nanoseconds) {now : Nat}
    (hle : c.now ≤ now) (draw : Binary64) :
    (∃ delay, (c.backoff.beginAttempt now draw).2 = .ok delay) ↔
      policy.enabled ∧ c.backoff.attempts < policy.attempts ∧
        (Backoff.recent policy.window.nanoseconds now (connections journal)).length <
          policy.windowAttempts := by
  obtain ⟨calls, hcalls⟩ := h.books.called
  obtain ⟨time, hpast, hrecords⟩ := hcalls.records hwindow
  have hhistory := (hrecords.prune (Nat.le_trans hpast hle)).history
  have hpolicy : (c.backoff.prune now).policy = policy := h.books.policy_eq
  rw [hpolicy] at hhistory
  rw [Backoff.beginAttempt_isOk_iff, hhistory, h.books.policy_eq]

end Course

theorem rested_run (hs : s.Steady) (h : s.course.Rested) (events : List Event) :
    (s.run events).course.Rested := by
  induction events generalizing s with
  | nil => exact h
  | cons event rest ih =>
    obtain ⟨passed, hroute, -⟩ := hs.travels event
    exact ih (hs.step event) (hroute.rested h)

/-- One connection leaves room for another if two are permitted, or once its window is over. -/
theorem recent_singleton_length_lt (window connected now : Nat) {limit : Nat} (hsome : 0 < limit) :
    (Backoff.recent window now [connected]).length < limit ↔
      2 ≤ limit ∨ connected + window ≤ now := by
  rw [Backoff.recent, List.filter_singleton]
  by_cases hrecent : now < connected + window
  · simp only [hrecent, decide_true, cond_true, List.length_singleton]
    omega
  · simp only [hrecent, decide_false, cond_false, List.length_nil]
    omega

/-- Assumes: a valid configuration that lets the session make at least one attempt to reconnect.
When the first link is lost, an attempt may begin if and only if two connections are permitted in a
window, or the window that began with the first one is over. If so the session waits for the delay
of a first attempt, and asks for a link once the time has come, unless its callers want it no
longer. If not it is over, and never asks for a link again. It does not either if there is no such
delay, and then it has broken down. -/
theorem first_loss_reconnects_iff (url : String) {config : ClientConfig} (payloadLimit : Option Nat)
    (hvalid : config.validate = .ok ()) (henabled : config.reconnect.enabled)
    (hattempts : 1 ≤ config.reconnect.attempts) {events : List Event} {event : Event}
    {connected : Nat}
    (hfirst : connections ((ofConfig url config payloadLimit).journal events) = [connected])
    (hserving : ((ofConfig url config payloadLimit).run events).IsServing)
    (hloses : ((ofConfig url config payloadLimit).run events).LosesLink event) :
    let s := (ofConfig url config payloadLimit).run events
    let t := s.step event
    let permitted := 2 ≤ config.reconnect.windowAttempts ∨
      connected + config.reconnect.window.nanoseconds ≤ t.now
    let delay := config.reconnect.delayFor 1 (config.reconnect.shareOf t.circumstances.draw)
    (∀ draw, (∃ delay, (s.backoff.beginAttempt t.now draw).2 = .ok delay) ↔ permitted) ∧
    (permitted → ∀ span, delay = some span → ∃ due, t.phase = .backingOff due ∧
      due = t.now + (Backoff.pause span t.circumstances.longestPause).nanoseconds ∧
      ∀ later nanoseconds, (∀ event ∈ later, event.isFarewell = false) →
        due ≤ (t.run later).now + nanoseconds →
          ∃ time, (time, .dial) ∈ t.journal (later ++ [.elapse nanoseconds])) ∧
    (permitted → delay = none → t.phase = .halted ∧ ∀ later, t.journal later = []) ∧
    (¬ permitted → t.IsOver ∧ t.status = .error ∧ ∀ later, t.journal later = []) := by
  intro s t permitted delay
  obtain ⟨hwindow, hsome⟩ := window_of_validate hvalid
  have hbegin := steady_ofConfig url config payloadLimit
  have hs : s.Steady := hbegin.run events
  have hpaced : s.course.Paced config.reconnect
      ((ofConfig url config payloadLimit).journal events) :=
    paced_run hwindow hsome events _ [] hbegin (paced_ofConfig url config payloadLimit)
  have hrested : s.backoff.attempts = 0 :=
    rested_run hbegin (fun hserving ↦ nomatch hserving) events hserving.stage
  have hpolicy : s.backoff.policy = config.reconnect := hpaced.books.policy_eq
  obtain ⟨hnow, hattempted⟩ := hs.loss hserving (hpolicy ▸ henabled) hloses
  have hiff (draw : Binary64) :
      (∃ delay, (s.backoff.beginAttempt t.now draw).2 = .ok delay) ↔ permitted := by
    have hle : s.now ≤ t.now := hnow ▸ Nat.le_add_right _ _
    have hroom := recent_singleton_length_lt config.reconnect.window.nanoseconds connected t.now
      hsome
    rw [← hfirst] at hroom
    refine (hpaced.attempt_iff hwindow hle draw).trans ?_
    rw [hroom, show s.course.backoff.attempts = 0 from hrested]
    simp only [henabled, true_and]
    exact and_iff_right hattempts
  have hpauses (hpermitted : permitted) : t.phase = t.pausing delay := by
    obtain ⟨other, hother⟩ := (hiff t.circumstances.draw).mpr hpermitted
    rcases hattempted with ⟨given, hbegun, hpauses⟩ | ⟨hnone, -⟩
    · have hgiven : given = delay := by
        rw [Backoff.delay_of_beginAttempt _ _ _ hbegun, Backoff.nextDelay, hpolicy, hrested]
        rfl
      exact hgiven ▸ hpauses
    · exact absurd hother (hnone other)
  refine ⟨hiff, fun hpermitted span hsome ↦ ?_, fun hpermitted hnone ↦ ?_, fun hrefused ↦ ?_⟩
  · have hwaits : t.phase = t.pausing (some span) := hsome ▸ hpauses hpermitted
    exact ⟨_, hwaits, rfl, fun later nanoseconds ↦ dials_of_waiting (hs.step event) hwaits later⟩
  · have hhalted : t.phase = .halted := (hpauses hpermitted).trans (congrArg t.pausing hnone)
    exact ⟨hhalted, journal_of_stays (hs.step event) (.inr (congrArg Phase.stage hhalted))⟩
  · rcases hattempted with ⟨delay, hbegun, -⟩ | ⟨-, hover, hstatus⟩
    · exact absurd ((hiff t.circumstances.draw).mp ⟨delay, hbegun⟩) hrefused
    · exact ⟨hover, hstatus, journal_of_stays (hs.step event) (.inl ((isOver_iff t).mp hover))⟩

/-- The link is lost a second after it was opened. A session with a valid configuration that permits
one connection in a window gives up at once, and one with the usual configuration asks for a link
two seconds later. -/
theorem first_loss_reconnects_iff_single :
    let config : ClientConfig := { reconnect := { windowAttempts := 1 } }
    let session := ofConfig "mem://" config none
    let usual := ofConfig "mem://" {} none
    let events := [.start, .linked, .elapse 1000000000]
    config.validate = .ok () ∧ config.reconnect.enabled ∧ 1 ≤ config.reconnect.attempts ∧
      connections (session.journal events) = [0] ∧ (session.run events).IsServing ∧
      (session.run events).LosesLink .lost ∧
      ((session.run events).step .lost).status = .error ∧
      (∀ later, ((session.run events).step .lost).journal later = []) ∧
      ∃ time, (time, .dial) ∈ ((usual.run events).step .lost).journal [.elapse 2000000000] := by
  have hvalid : ({ reconnect := { windowAttempts := 1 } } : ClientConfig).validate = .ok () := rfl
  have husual : ({} : ClientConfig).validate = .ok () := rfl
  intro config session usual events
  have hfirst : connections (session.journal events) = [0] := by decide +kernel
  have hserving : (session.run events).IsServing := isServing_of_stage (by decide +kernel)
  have hloses : (session.run events).LosesLink .lost := .inl rfl
  have hattempts : 1 ≤ config.reconnect.attempts := by decide
  obtain ⟨-, -, -, hrefused⟩ :=
    first_loss_reconnects_iff "mem://" none hvalid rfl hattempts hfirst hserving hloses
  have hnow : ((session.run events).step .lost).now = 1000000000 := by decide +kernel
  have hinside : ¬ (2 ≤ config.reconnect.windowAttempts ∨
      0 + config.reconnect.window.nanoseconds ≤ ((session.run events).step .lost).now) := by
    rw [hnow]
    decide
  obtain ⟨-, hstatus, hnever⟩ := hrefused hinside
  have hfirst' : connections (usual.journal events) = [0] := by decide +kernel
  have hserving' : (usual.run events).IsServing := isServing_of_stage (by decide +kernel)
  obtain ⟨-, hwaits, -⟩ := first_loss_reconnects_iff "mem://" none husual rfl (by decide) hfirst'
    hserving' (.inl rfl : (usual.run events).LosesLink .lost)
  obtain ⟨due, -, hdue, hdials⟩ := hwaits (.inl (by decide)) (.ofSeconds 2) (by decide +kernel)
  refine ⟨hvalid, rfl, hattempts, hfirst, hserving, hloses, hstatus, hnever, ?_⟩
  have hpause : (Backoff.pause (.ofSeconds 2)
      ((usual.run events).step .lost).circumstances.longestPause).nanoseconds = 2000000000 := by
    decide +kernel
  have hrun (t : Session) : t.run [] = t := rfl
  exact hdials [] 2000000000 nofun (by rw [hrun, hdue, hpause])

end Session

end Wireline
